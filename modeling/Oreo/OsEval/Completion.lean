import Oreo.OsEval.Progress
import Oreo.Transition.Termination

namespace Oreo.OsEval

open Oreo.Transition Interaction Relation

/-! # Every session of socket tests comes to its end -/

/-! ## No run goes on forever -/

section Codes

variable {w : World} {k next : Kernel} {label : Label} {index : Nat}

def Kernel.codes (k : Kernel) : List (Code Unit) := k.world.procs.map Proc.code

theorem codes_modify {procs : List Proc} {f : Proc → Proc} {p : Proc} (found : procs[index]? = some p) :
    (procs.modify index f).map Proc.code = (procs.map Proc.code).set index (f p).code := by
  induction procs generalizing index with
  | nil => simp at found
  | cons q procs ih =>
      cases index with
      | zero =>
          obtain rfl : q = p := by simpa using found
          rfl
      | succ index => simpa using ih (by simpa using found)

theorem World.codes_collect : (w.collect index).map Proc.code = w.procs.map Proc.code := by
  unfold World.collect
  split
  · next child zombie =>
      obtain ⟨q, found, -⟩ := World.zombie_ended zombie
      obtain ⟨inside, rfl⟩ := List.getElem?_eq_some_iff.mp found
      have unchanged := List.set_getElem_self (show child < (w.procs.map Proc.code).length by simpa using inside)
      rw [List.getElem_map] at unchanged
      exact (codes_modify found).trans unchanged
  · rfl

/-- The code of the process is replaced by what comes after the call, and `fork` adds the child's. -/
theorem Kernel.codes_step (stepped : k.step label = some next) : CutExpand Rest (next.codes : Multiset (Code Unit)) k.codes := by
  obtain ⟨c, cont, asked, -, -, rfl⟩ := Kernel.step_eq_some.mp stepped
  obtain ⟨p, found, asked⟩ := Option.bind_eq_some_iff.mp asked
  have code := (Proc.request_eq_some.mp asked).2
  obtain ⟨procs, same, there, codes⟩ : ∃ procs,
      procs = (if c = .wait ∧ 0 ≤ label.reply.value then k.world.collect label.proc else k.world.procs) ∧
        procs[label.proc]? = some p ∧ procs.map Proc.code = k.codes := by
    refine ⟨_, rfl, ?_⟩
    split
    · exact ⟨World.collect_self found asked, World.codes_collect⟩
    · exact ⟨found, rfl⟩
  have here : k.codes[label.proc]? = some (.call c cont) := by simp [Kernel.codes, found, code]
  simp only [Kernel.codes, Kernel.answer, World.answer, ← same, List.map_append, codes_modify there, codes]
  refine cutExpand_set here (.reply c cont label.reply) fun rest member => ?_
  split at member
  · obtain rfl : rest = (Proc.spawn cont label.reply label.proc).code := by simpa using member
    exact .reply c cont _
  · contradiction

theorem Kernel.wellFounded_step : WellFounded fun next k : Kernel => ∃ label, k.step label = some next :=
  Subrelation.wf (fun ⟨_, stepped⟩ => Kernel.codes_step stepped)
    (InvImage.wf (fun k : Kernel => (k.codes : Multiset (Code Unit))) wellFounded_rest.cutExpand)

end Codes

/-! ## The order is kept -/

section Order

variable {base : Table} {initial : List String} {total : Nat} {k next : Kernel} {v : View} {label : Label} {index : Nat}

theorem Alone.first (alone : Alone base initial k v) (asks : (k.world.request index).isSome = true) : index = 0 := by
  obtain ⟨request, asked⟩ := Option.isSome_iff_exists.mp asks
  obtain ⟨p, found, asked⟩ := Option.bind_eq_some_iff.mp asked
  have running := (Proc.request_eq_some.mp asked).1
  refine Classical.byContradiction fun later => ?_
  have reaped := alone.reaped index p (Nat.one_le_iff_ne_zero.mpr later) found
  rw [running] at reaped
  contradiction

structure InOrder (base : Table) (initial : List String) (total : Nat) (k : Kernel) : Prop where
  lengths : k.tables.length = k.world.procs.length
  settled : Settled base initial total k

theorem InOrder.step (inOrder : InOrder base initial total k) (clean : ∀ fd x, base.find fd ≠ some (.socket x))
    (stepped : k.step label = some next) : InOrder base initial total next := by
  obtain ⟨lengths, settled⟩ := inOrder
  obtain ⟨c, cont, asked, permitted, possible, rfl⟩ := Kernel.step_eq_some.mp stepped
  refine ⟨lengths_next lengths permitted, ?_⟩
  rcases settled with ⟨v, alone, count⟩ | ⟨g, holds, count⟩
  · have first := alone.first (by rw [asked]; rfl)
    rw [first] at asked permitted ⊢
    exact alone.step lengths count asked permitted
  · exact holds.step clean count asked permitted possible

variable (sequence : List Invocation) (paths : List String) (files : List Nat)

theorem start_find (fd : Int) :
    ((Kernel.start sequence paths files).table 0).find fd = if ∃ file ∈ files, fd = (file : Nat) then some .file else none := by
  change (files.map fun (fd : Nat) => ((fd : Int), Resource.file)).lookup fd = _
  induction files with
  | nil => simp
  | cons file files ih =>
      rw [List.map_cons, List.lookup_cons, ih]
      by_cases here : fd = file
      · simp [here]
      · simp [here, beq_eq_false_iff_ne.mpr here]

theorem start_clean (fd : Int) (s : Nat) : ((Kernel.start sequence paths files).table 0).find fd ≠ some (.socket s) := by
  rw [start_find]
  split <;> simp

theorem inOrder_start :
    InOrder ((Kernel.start sequence paths files).table 0) paths sequence.length (Kernel.start sequence paths files) := by
  refine ⟨rfl, .inl ⟨⟨_, .idle (sequence.map fun invocation => invocation.job.test)⟩,
    ⟨⟨⟨_, rfl, rfl, ?_⟩, rfl, fun _ => False.elim⟩, trivial, fun _ _ _ => rfl, ?_, ?_, ?_, ?_⟩, ?_⟩⟩
  · refine follows_invokeAll ?_ fun _ => rfl
    rw [start_find, if_neg]
    rintro ⟨file, -, negative⟩
    omega
  · exact start_clean sequence paths files
  · intro index p above found
    have inside := (List.getElem?_eq_some_iff.mp found).1
    exact absurd inside (Nat.not_lt.mpr above)
  · intro x named
    contradiction
  · by_cases present : serverPath ∈ paths
    · exact .inl present
    · exact .inr ⟨rfl, present⟩
  · simp [Kernel.start, World.start, Stage.left, Nat.add_comm]

theorem inOrder_of_reachable (reachable : Reachable Kernel.step (fun _ _ => True) (Kernel.start sequence paths files) k) :
    InOrder ((Kernel.start sequence paths files).table 0) paths sequence.length k := by
  refine reachable.invariant _ (inOrder_start sequence paths files) fun k label next _ inOrder _ stepped => ?_
  exact inOrder.step (start_clean sequence paths files) stepped

end Order

/-! ## The end -/

/-- The first process has returned from `total` invocations with the descriptors of `base`. Each has made
another process, and it has collected all of them. -/
structure Kernel.Finished (base : Table) (total : Nat) (k : Kernel) : Prop where
  returned : ∃ p, k.world.procs[0]? = some p ∧ p.status = .running ∧ p.code = .ret ()
  restored : ∀ fd, (k.table 0).find fd = base.find fd
  forked : k.world.procs.length = total + 1
  collected : ∀ index p, 1 ≤ index → k.world.procs[index]? = some p → p.status = .reaped

section Ends

variable {base : Table} {initial : List String} {total : Nat} {k : Kernel} {v : View}

theorem Alone.finished (alone : Alone base initial k v) (count : k.world.procs.length + v.stage.left = total + 1)
    (idle : v.stage = .idle []) (none : k.world.request 0 = none) : k.Finished base total := by
  obtain ⟨p, found, running, -⟩ := alone.doing.running
  have asks : k.world.request 0 = p.request := by rw [World.request, found]; rfl
  rw [asks] at none
  refine ⟨⟨p, found, running, ?_⟩, ?_, ?_, alone.reaped⟩
  · cases code : p.code with
    | ret a => rfl
    | call c cont => simp [Proc.request, running, code] at none
  · rw [alone.doing.table_eq]
    exact alone.restored [] idle
  · rw [idle] at count
    exact count

theorem Alone.moves (alone : Alone base initial k v) (count : k.world.procs.length + v.stage.left = total + 1) :
    (∃ label next, k.step label = some next) ∨ k.Finished base total := by
  have sole := alone.sole
  rcases alone.doing.request with ⟨idle, none⟩ | ⟨c, cont, asked⟩
  · exact .inr (alone.finished count idle none)
  · obtain ⟨after, acts, -⟩ := alone.doing.asks asked
    refine .inl (Kernel.Willing.steps ?_ asked)
    cases acts with
    | idle idles => exact idles.willing
    | @close t st fd paired spare => cases st <;> first | exact paired.elim | exact sole.elim
    | pipe1 | pipe2 => exact willing_pipe
    | fork => exact ⟨.of 1, by simp [Kernel.permits], by simp [World.possible]⟩
    | _ => exact sole.elim

theorem InOrder.moves (inOrder : InOrder base initial total k) :
    (∃ label next, k.step label = some next) ∨ k.Finished base total := by
  rcases inOrder.settled with ⟨v, alone, count⟩ | ⟨g, holds, -⟩
  · exact alone.moves count
  · exact .inl holds.moves

/-- However the processes take turns, they come to the end of the sequence. -/
theorem sessions_come_to_their_end (sequence : List Invocation) (paths : List String) (files : List Nat) :
    Inevitable Kernel.step (Kernel.Finished ((Kernel.start sequence paths files).table 0) sequence.length)
      (Kernel.start sequence paths files) := by
  refine .of_progress (Kernel.wellFounded_step.apply _) (inOrder_start sequence paths files) ?_ fun k inOrder => inOrder.moves
  exact fun k label next inOrder stepped => inOrder.step (start_clean sequence paths files) stepped

/-! ## What is transferred -/

/-- Only the first of two processes and its child ever have a connection, and only if nothing is at the path. -/
theorem Settled.connected {index s : Nat} {fd : Int} (settled : Settled base initial total k) (asks : (k.world.request index).isSome = true)
    (found : (k.table index).find fd = some (.socket s)) (connected : k.objects.sockets s = .connected) :
    k.world.procs.length = 2 ∧ serverPath ∉ initial := by
  rcases settled with ⟨v, alone, -⟩ | ⟨g, holds, -⟩
  · rw [alone.first asks, alone.doing.table_eq] at found
    exact absurd found (alone.clean fd s)
  · rcases holds.sockets with connecting | refused
    · exact connecting.first
    · have fresh : k.objects.sockets s = .fresh := by
        rcases holds.active asks with ⟨rfl, stays⟩ | ⟨rfl, stays⟩
        · rw [(holds.server stays).table_eq] at found
          exact (refused.server fd s found).2.2
        · rw [(holds.client stays).table_eq] at found
          exact (refused.client fd s found).2.2
      rw [connected] at fresh
      contradiction

def Call.Transfers : Call → Prop
  | .send _ _ | .recv _ _ => True
  | _ => False

theorem Kernel.permits_transfer {index : Nat} {c : Call} {r : Reply} (transfers : c.Transfers) (permitted : k.permits index c r = true) :
    r.value = -1 ∨ ∃ fd s, (k.table index).find fd = some (.socket s) ∧ k.objects.sockets s = .connected := by
  have cases' (fd size : Int) (permitted : k.permits index (.send fd size) r = true) :
      r.value = -1 ∨ ∃ fd s, (k.table index).find fd = some (.socket s) ∧ k.objects.sockets s = .connected := by
    simp only [Kernel.permits, Bool.or_eq_true, Bool.and_eq_true, beq_iff_eq, decide_eq_true_eq] at permitted
    refine permitted.imp id fun allowed => ?_
    have state := allowed.1.1
    unfold Kernel.state? at state
    split at state
    · next s found => exact ⟨fd, s, found, Option.some_inj.mp state⟩
    · contradiction
  cases c with
  | send fd size => exact cases' fd size permitted
  | recv fd size => exact cases' fd size permitted
  | _ => exact transfers.elim

/-- Every transfer fails that does not belong to the first invocation. -/
def Kernel.TransfersFirst (initial : List String) (k : Kernel) : Prop :=
  ∀ index c cont r, k.world.request index = some (c, cont) → c.Transfers → k.permits index c r = true →
    r.value = -1 ∨ k.world.procs.length = 2 ∧ serverPath ∉ initial

theorem only_the_first_invocation_transfers (sequence : List Invocation) (paths : List String) (files : List Nat) :
    Always Kernel.step (fun _ _ => True) (Kernel.TransfersFirst paths) (Kernel.start sequence paths files) := by
  intro k reachable index c cont r asked transfers permitted
  have settled := (inOrder_of_reachable sequence paths files reachable).settled
  refine (Kernel.permits_transfer transfers permitted).imp id ?_
  rintro ⟨fd, s, found, connected⟩
  exact settled.connected (by rw [asked]; rfl) found connected

/-- The replies up to the first `send`, with the processes that get them. -/
def firstSend : List Label :=
  [(0, 0, (3, 4)), (0, 0, (5, 6)), (0, 7, (0, 0)), (1, 0, (0, 0)), (1, 0, (0, 0)), (1, 3, (0, 0)), (1, 0, (0, 0)), (1, 0, (0, 0)),
    (1, 1, (0, 0)), (0, 0, (0, 0)), (0, 0, (0, 0)), (0, 1, (0, 0)), (0, 4, (0, 0)), (0, 0, (0, 0)), (0, 8, (0, 0))].map
      fun (proc, value, ends) => ⟨proc, value, ends, ⟨0, 0⟩⟩

def hasSent (reached : List (Kernel × Label) × Kernel) : Bool :=
  reached.1.any fun event =>
    match event.1.world.request event.2.proc with
    | some (.send _ _, _) => decide (0 ≤ event.2.reply.value)
    | _ => false

/-- In the first invocation transfers succeed. -/
example : ∃ trace k, Run Kernel.step (fun _ _ => True) (.start [⟨⟨.send, 1, 8, 1⟩, .entry 1, by decide⟩] [] [0, 1, 2]) trace k ∧
    hasSent (trace, k) = true :=
  @exists_run_of_replay _ _ _ _ (fun _ _ => true) _ firstSend hasSent (fun _ _ _ => trivial) (by decide)

end Ends

end Oreo.OsEval
