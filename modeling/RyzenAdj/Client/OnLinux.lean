import RyzenAdj.Cli.OnLinux
import RyzenAdj.Client.Readjust
import RyzenAdj.Linux.Workbench

/-!
# Clients as Linux processes

Any program over the exported functions, down to its system calls: what the tool
does in order, every client does that keeps to the order of the calls.
-/

namespace RyzenAdj
open Interaction Api

def libraryOnLinux (depth : Nat) : Impl library linux (Option RyzenAccess × Statics) :=
  (libraryImpl depth).over Host.apiImpl

def clientOnLinux {C : Signature} {α : Type} (depth : Nat) (p : Prog (library.sum C) α) :
    Prog (linux.sum C) (α × Option RyzenAccess × Statics) :=
  p.link ((libraryOnLinux depth).beside C) (none, .initial)

/-- What the process of a client has. -/
def ClientStanding (family : RyzenFamily) (u : Usage) (r : Option RyzenAccess × Statics)
    (k : Kernel) : Prop :=
  ∃ b, Attended family u r.1 b ∧ Standing family b r.2 k

theorem libraryOnLinux_meets (cpu : Word → CpuInfo) (depth : Nat) :
    (libraryOnLinux (depth + 2)).Meets libraryEnv (kernelEnv cpu)
      (ClientStanding (loadedFamily cpu)) :=
  (libraryImpl_meets (loadedFamily cpu) depth).total.meets.over (apiImpl_meets cpu)

theorem clientStanding_initial (family : RyzenFamily) :
    ClientStanding family .notYet (none, .initial) .initial :=
  ⟨.initial, .inl ⟨rfl, rfl⟩, standing_initial family⟩

section Standing
variable {family : RyzenFamily} {u : Usage} {r : Option RyzenAccess × Statics} {k : Kernel}

/-- Before there is a handle and after its release there is nothing left open. -/
theorem ClientStanding.clean (h : ClientStanding family u r k) (hu : ¬u.HasHandle) : Clean k := by
  obtain ⟨b, hattended, hstanding⟩ := h
  apply clean_of_standing hstanding
  obtain ⟨ry, p⟩ := r
  cases ry with
  | some ry => exact absurd hattended.usage hu
  | none =>
    rcases hattended with ⟨-, rfl⟩ | ⟨-, hgone⟩
    · exact fun _ h => nomatch h
    · exact hgone

theorem ClientStanding.unlocked (h : ClientStanding family u r k) : Unlocked k := by
  obtain ⟨b, -, hstanding⟩ := h
  unfold Unlocked
  rcases hstanding.lock with hfree | ⟨hnone, -⟩
  · rw [hfree]
    decide
  · rw [hnone]
    decide

end Standing

section Clients
variable {C : Signature} {α : Type} {p : Prog (library.sum C) α} {Q : α → Usage → Prop}

theorem client_run (hp : p.Wp (libraryEnv.beside C) Q .notYet) (cpu : Word → CpuInfo)
    (depth : Nat) :
    (clientOnLinux (depth + 2) p).Wp ((kernelEnv cpu).beside C)
      (fun x k => ∃ u, Q x.1 u ∧ ClientStanding (loadedFamily cpu) u x.2 k) .initial :=
  Prog.wp_link (libraryOnLinux_meets cpu depth).beside (r := (none, .initial))
    (clientStanding_initial (loadedFamily cpu)) hp

end Clients

section Processes
variable {C : Signature} {α π ι : Type} [DecidableEq ι] {cpu : Word → CpuInfo}

theorem client_orderly {p : Prog (library.sum C) α} {Q : α → Usage → Prop}
    (hp : p.Wp (libraryEnv.beside C) Q .notYet) (depth : Nat) :
    Orderly cpu (clientOnLinux (depth + 2) p) where
  safe := by
    apply Prog.wp_mono _ (client_run hp cpu depth)
    intro x k hk
    obtain ⟨u, -, hstanding⟩ := hk
    exact hstanding.unlocked
  aims := by
    have hlibrary : ∀ r o, Aims (libraryOnLinux (depth + 2) r o) := fun r o =>
      Prog.passes_bind (Prog.passes_link apiImpl_aims _ _) fun _ => Prog.passes_ret _
    exact Prog.passes_link (Prog.passes_beside hlibrary) _ _

/-- However the system calls of any clients interleave, each with a handle of its own, for ever or
until it ends: one process at a time has the lock, and only that process touches the mailbox; where
its data goes through the mailbox, the access before was its own; and a client that has ended does
not keep the lock. -/
theorem clients_exclusive {p : π → Prog (library.sum C) α} {Q : π → α → Usage → Prop}
    (hp : ∀ c, (p c).Wp (libraryEnv.beside C) (Q c) .notYet) (depth : Nat)
    {S T : Config (linux.sum C) ι (Computer ι) (α × Option RyzenAccess × Statics)}
    {acts : List (Act (linux.sum C) ι π (α × Option RyzenAccess × Statics))}
    (hstart : Unstarted S)
    (hmoves : (machine cpu ι fun c => clientOnLinux (depth + 2) (p c)).Moves S acts T) :
    Exclusive T :=
  processes_exclusive (fun c => client_orderly (hp c) depth) hstart hmoves

end Processes

def scriptsOff : Config (linux.sum python) Bool (Computer Bool)
    (Readjust.End × Option RyzenAccess × Statics) :=
  ⟨⟨fun _ => .initial, fun _ => none, none⟩, fun _ => none⟩

def scripts : System (linux.sum python) Bool (Computer Bool) Unit
    (Readjust.End × Option RyzenAccess × Statics) :=
  machine ravenCpu Bool fun _ => clientOnLinux 2 Readjust.readjust

def scriptBench : Bench scripts Workbench :=
  Workbench.bench ravenCpu (fun _ => ()) fun _ : Unit => clientOnLinux 2 Readjust.readjust

/-- The second script asks for the lock while the first is at the mailbox, and is there itself when
the first has let go of it. -/
theorem clients_exclusive_two : ∃ acts acts' S T,
    scripts.Moves scriptsOff acts S ∧ acts.any (turnedAway true) = true ∧ ReadsAlone S false ∧
    scripts.Moves S acts' T ∧ ReadsAlone T true := by
  have hplay : (scriptBench.play
      [.start false (), .goOn false 21, .start true (), .goOn true 13]
      ⟨.initial, fun _ => none⟩).any
      (fun x => x.1.any (turnedAway true) && readsRegister (x.2.task false) &&
        (scriptBench.play [.goOn false 11, .goOn true 12] x.2).any fun y =>
          readsRegister (y.2.task true)) = true := by decide +kernel
  obtain ⟨acts, S, hS, hplay⟩ := Bench.exists_moves hplay
  simp only [Bool.and_eq_true] at hplay
  obtain ⟨⟨haway, hreads⟩, hplay⟩ := hplay
  obtain ⟨acts', T, hT, hreads'⟩ := Bench.exists_moves hplay
  have hview : scriptBench.view ⟨.initial, fun _ => none⟩ = scriptsOff := by
    show Config.mk Workbench.initial.seen _ = _
    rw [Workbench.seen_initial]
    rfl
  rw [hview] at hS
  have hstart : Unstarted scriptsOff := ⟨fun _ => rfl, fun _ => rfl⟩
  have hafter := (System.moves_append _).mpr ⟨_, hS, hT⟩
  have hfirst := clients_exclusive (fun _ => Readjust.readjust_keeps) 0 hstart hS
  have hsecond := clients_exclusive (fun _ => Readjust.readjust_keeps) 0 hstart hafter
  exact ⟨acts, acts', _, _, hS, haway, hfirst.readsAlone hreads, hT, hsecond.readsAlone hreads'⟩

end RyzenAdj
