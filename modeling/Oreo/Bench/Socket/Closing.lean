import Oreo.Bench.Socket.Setup
import Oreo.Posix.Own
import Mathlib.Data.List.Nodup
import Mathlib.Data.List.ReduceOption

namespace Oreo.Bench.Socket

open Oreo.Posix Oreo.Transition

/-! # Which descriptors the cleanup closes -/

variable {Pc : Type} {prog : Program (Locals Pc)} {setup : Setup → Pc} {release : Release → Pc} {iterCnt : Nat}
variable {forked : Locals Pc → Locals Pc} {l l' : Locals Pc} {call : Call} {r : Reply} {closed : List Handle}

def Locals.pipeEnds (l : Locals Pc) : List Handle := [l.fds1.1, l.fds1.2, l.fds2.1, l.fds2.2].reduceOption

/-- The arrays are as initialized, or as `pipe` has left them. -/
structure Locals.Piped (l : Locals Pc) : Prop where
  fds1 : l.fds1 = (none, none) ∨ l.fds1 = Fd.ends 0
  fds2 : l.fds2 = (none, none) ∨ l.fds2 = Fd.ends 1

theorem Locals.Piped.count (piped : l.Piped) {h : Handle} (member : h ∈ l.pipeEnds) : l.pipeEnds.count h = 1 := by
  refine List.count_eq_one_of_mem ?_ member
  rcases piped.fds1 with first | first <;> rcases piped.fds2 with second | second <;>
    simp [Locals.pipeEnds, first, second, List.reduceOption]

theorem Locals.Piped.no_socket (piped : l.Piped) (role : Role) : .socket role ∉ l.pipeEnds := by
  rcases piped.fds1 with first | first <;> rcases piped.fds2 with second | second <;>
    simp [Locals.pipeEnds, first, second, List.reduceOption]

structure Inside (setup : Setup → Pc) (release : Release → Pc) (l : Locals Pc) : Prop where
  setup : ∀ s, l.pc ≠ setup s
  release : ∀ s, l.pc ≠ release s

/-- The branches go on in `l'`, or leave for the cleanup. -/
structure Leads (setup : Setup → Pc) (release : Release → Pc) (l l' : Locals Pc) : Prop where
  fds1 : l'.fds1 = l.fds1
  fds2 : l'.fds2 = l.fds2
  place : Inside setup release l' ∨ ∃ before : Locals Pc, l' = before.cleanup release

/-- The branches of `prog` open no pipe and close nothing. -/
structure Branches (prog : Program (Locals Pc)) (setup : Setup → Pc) (release : Release → Pc)
    (forked : Locals Pc → Locals Pc) : Prop where
  apart : ∀ s t, setup s ≠ release t
  injective : Function.Injective release
  forked : ∀ l, Leads setup release l (forked l)
  call : ∀ l call, Inside setup release l → prog.request l = some call → call.closed = [] ∧ ∀ id, call ≠ .pipe id
  leads : ∀ l r, Inside setup release l → Leads setup release l (prog.resume l r)

/-- The branches of a test that goes on at `parent` and at `child` after `fork`. -/
theorem branches_of_leads {parent child : Pc} (apart : ∀ s t, setup s ≠ release t) (injective : Function.Injective release)
    (forks : ∀ l, forked l = if 0 < l.pid then { l with pc := parent, errored := true }
      else if l.pid = 0 then { l with pc := child } else l.err release)
    (inside : ∀ l : Locals Pc, l.pc = parent ∨ l.pc = child → Inside setup release l)
    (call : ∀ l call, Inside setup release l → prog.request l = some call → call.closed = [] ∧ ∀ id, call ≠ .pipe id)
    (leads : ∀ l r, Inside setup release l → Leads setup release l (prog.resume l r)) :
    Branches prog setup release forked where
  apart := apart
  injective := injective
  forked l := by
    rw [forks]
    split_ifs
    · exact ⟨rfl, rfl, .inl (inside _ (.inl rfl))⟩
    · exact ⟨rfl, rfl, .inl (inside _ (.inr rfl))⟩
    · exact ⟨rfl, rfl, .inr ⟨_, rfl⟩⟩
  call := call
  leads := leads

/-- The arrays before each call of the setup. -/
def Setup.arrays : Setup → (Fd × Fd) × (Fd × Fd)
  | .allocDiffs | .allocBuf | .pipe1 => ((none, none), (none, none))
  | .pipe2 => (Fd.ends 0, (none, none))
  | .remove | .fork => (Fd.ends 0, Fd.ends 1)

/-- What has been closed, and what the cleanup still has to close. -/
inductive Stage (setup : Setup → Pc) (release : Release → Pc) (closed : List Handle) (l : Locals Pc) : Prop where
  | setup (s : Setup) : l.pc = setup s → (l.fds1, l.fds2) = s.arrays → closed = [] → Stage setup release closed l
  | branch : Inside setup release l → closed = [] → Stage setup release closed l
  | closing (fd : Fd) (pending : List Fd) : l.pc = release (.close fd pending) →
      closed ++ (fd :: pending).reduceOption = l.pipeEnds → Stage setup release closed l
  | done : l.pc = release .remove ∨ l.pc = release .returned → closed = l.pipeEnds → Stage setup release closed l

theorem stage_closing (pending : List Fd) (rest : closed ++ pending.reduceOption = l.pipeEnds) :
    Stage setup release closed (l.closing release pending) := by
  cases pending with
  | nil => exact .done (.inl rfl) (by simpa [Locals.closing, Locals.pipeEnds] using rest)
  | cons fd pending => exact .closing fd pending rfl rest

theorem stage_cleanup (l : Locals Pc) : Stage setup release [] (l.cleanup release) :=
  stage_closing _ (by simp [Locals.pipeEnds, List.reduceOption, List.filterMap_cons])

/-- The call `call` at `l`, replied to by `r`, keeps the books. -/
structure Accounted (setup : Setup → Pc) (release : Release → Pc) (closed : List Handle) (call : Call) (r : Reply)
    (l l' : Locals Pc) : Prop where
  piped : l'.Piped
  stage : Stage setup release (closed ++ call.closed) l'
  kept : l.pipeEnds ⊆ l'.pipeEnds
  pipe : ∀ id, call = .pipe id → r = .ok → [.readEnd id, .writeEnd id] ⊆ l'.pipeEnds

theorem accounted_of_leads (piped : l.Piped) (quiet : call.closed = []) (noPipe : ∀ id, call = .pipe id → r ≠ .ok)
    (leads : Leads setup release l l') : Accounted setup release [] call r l l' := by
  have same : l'.pipeEnds = l.pipeEnds := by simp only [Locals.pipeEnds, leads.fds1, leads.fds2]
  refine ⟨⟨?_, ?_⟩, ?_, ?_, ?_⟩
  · rw [leads.fds1]
    exact piped.fds1
  · rw [leads.fds2]
    exact piped.fds2
  · rw [quiet]
    rcases leads.place with inside | ⟨before, rfl⟩
    · exact .branch inside rfl
    · exact stage_cleanup before
  · rw [same]
    exact List.Subset.refl _
  · exact fun id asked granted => absurd granted (noPipe id asked)

theorem Setup.arrays_piped {s : Setup} (arrays : (l.fds1, l.fds2) = s.arrays) : l.Piped := by
  cases s <;> simp only [Setup.arrays, Prod.mk.injEq] at arrays <;> constructor <;> simp [arrays]

theorem accounted_of_setup {s s' : Setup} (pc : l'.pc = setup s') (arrays : (l'.fds1, l'.fds2) = s'.arrays)
    (kept : l.pipeEnds ⊆ l'.pipeEnds) (pipe : ∀ id, s.request = .pipe id → [.readEnd id, .writeEnd id] ⊆ l'.pipeEnds) :
    Accounted setup release [] s.request r l l' := by
  have quiet : s.request.closed = [] := by cases s <;> rfl
  refine ⟨Setup.arrays_piped arrays, ?_, kept, fun id asked _ => pipe id asked⟩
  rw [quiet]
  exact .setup s' pc arrays rfl

theorem setup_accounted (starts : Starts prog setup release iterCnt forked) (branches : Branches prog setup release forked)
    {s : Setup} (pc : l.pc = setup s) (arrays : (l.fds1, l.fds2) = s.arrays) :
    Accounted setup release [] s.request r l (prog.resume l r) := by
  have piped := Setup.arrays_piped arrays
  have quiet : s.request.closed = [] := by cases s <;> rfl
  have errs (failed : r.failed = true) : Accounted setup release [] s.request r l ((l.observe r).err release) := by
    refine accounted_of_leads piped quiet (fun id _ granted => ?_) ⟨rfl, rfl, .inr ⟨_, rfl⟩⟩
    rw [granted] at failed
    contradiction
  rw [starts.resume l s r pc]
  cases s with
  | fork =>
      have leads := branches.forked { l.observe r with pid := r.child }
      exact accounted_of_leads piped quiet (by simp [Setup.request]) ⟨leads.fds1, leads.fds2, leads.place⟩
  | remove => exact accounted_of_setup rfl arrays (List.Subset.refl _) (by simp [Setup.request])
  | allocDiffs =>
      rw [Locals.prepare]
      split
      · exact errs ‹_›
      · exact accounted_of_setup rfl arrays (List.Subset.refl _) (by simp [Setup.request])
  | allocBuf =>
      rw [Locals.prepare]
      split
      · exact errs ‹_›
      · exact accounted_of_setup rfl arrays (List.Subset.refl _) (by simp [Setup.request])
  | pipe1 =>
      obtain ⟨fds1, fds2⟩ := Prod.mk.inj arrays
      rw [Locals.prepare]
      split
      · exact errs ‹_›
      · refine accounted_of_setup rfl (congrArg (Prod.mk _) fds2) ?_ ?_
        · simp [Locals.pipeEnds, fds1, fds2, List.reduceOption]
        · intro id asked
          obtain rfl : 0 = id := by simpa [Setup.request] using asked
          simp [Locals.pipeEnds, fds2, List.reduceOption]
  | pipe2 =>
      obtain ⟨fds1, fds2⟩ := Prod.mk.inj arrays
      rw [Locals.prepare]
      split
      · exact errs ‹_›
      · refine accounted_of_setup rfl (congrArg (Prod.mk · _) fds1) ?_ ?_
        · simp [Locals.pipeEnds, fds1, fds2, List.reduceOption]
        · intro id asked
          obtain rfl : 1 = id := by simpa [Setup.request] using asked
          simp [Locals.pipeEnds, fds1, List.reduceOption]

theorem branch_accounted (branches : Branches prog setup release forked) (inside : Inside setup release l)
    (piped : l.Piped) (asked : prog.request l = some call) : Accounted setup release [] call r l (prog.resume l r) := by
  obtain ⟨quiet, noPipe⟩ := branches.call l call inside asked
  exact accounted_of_leads piped quiet (fun id isPipe => absurd isPipe (noPipe id)) (branches.leads l r inside)

theorem closing_accounted (starts : Starts prog setup release iterCnt forked) {fd : Fd} {pending : List Fd}
    (pc : l.pc = release (.close fd pending)) (rest : closed ++ (fd :: pending).reduceOption = l.pipeEnds) (piped : l.Piped) :
    Accounted setup release closed (.close fd) r l (prog.resume l r) := by
  rw [starts.resumeRelease l _ r pc]
  have same : ((l.observe r).finish release (.close fd pending)).settled = l.settled := finish_settled _ _
  simp only [Locals.settled, Prod.mk.injEq] at same
  obtain ⟨-, fds1, fds2⟩ := same
  refine ⟨?_, ?_, ?_, ?_⟩
  · constructor
    · rw [fds1]
      exact piped.fds1
    · rw [fds2]
      exact piped.fds2
  · refine stage_closing (l := l.observe r) pending ?_
    have left : closed ++ fd.toList ++ pending.reduceOption = l.pipeEnds := by
      rw [← rest, List.append_assoc]
      cases fd <;> rfl
    exact left
  · simp only [Locals.pipeEnds, fds1, fds2]
    exact List.Subset.refl _
  · intro id isPipe
    contradiction

theorem done_accounted (starts : Starts prog setup release iterCnt forked) (pc : l.pc = release .remove)
    (all : closed = l.pipeEnds) (piped : l.Piped) : Accounted setup release closed .remove r l (prog.resume l r) := by
  rw [starts.resumeRelease l _ r pc]
  refine ⟨⟨piped.fds1, piped.fds2⟩, ?_, List.Subset.refl _, ?_⟩
  · exact .done (.inr rfl) ((List.append_nil closed).trans all)
  · intro id isPipe
    contradiction

theorem Stage.accounted (stage : Stage setup release closed l) (starts : Starts prog setup release iterCnt forked)
    (branches : Branches prog setup release forked) (piped : l.Piped) (asked : prog.request l = some call) :
    Accounted setup release closed call r l (prog.resume l r) := by
  cases stage with
  | setup s pc arrays nothing =>
      obtain rfl : s.request = call := by simpa [starts.request l s pc] using asked
      subst nothing
      exact setup_accounted starts branches pc arrays
  | branch inside nothing =>
      subst nothing
      exact branch_accounted branches inside piped asked
  | closing fd pending pc rest =>
      obtain rfl : Call.close fd = call := by simpa [starts.requestRelease l _ pc, Release.request] using asked
      exact closing_accounted starts pc rest piped
  | done pc all =>
      rcases pc with pc | pc
      · obtain rfl : Call.remove = call := by simpa [starts.requestRelease l _ pc, Release.request] using asked
        exact done_accounted starts pc all piped
      · simp [starts.requestRelease l _ pc, Release.request] at asked

/-- What a process that has made `steps` has opened and closed. -/
structure Books (prog : Program (Locals Pc)) (setup : Setup → Pc) (release : Release → Pc) (steps : List (Locals Pc × Reply))
    (l : Locals Pc) : Prop where
  piped : l.Piped
  stage : Stage setup release (closes prog steps) l
  opened : ∀ h ∈ opens prog steps, h ∈ l.pipeEnds ∨
    ∃ taken ∈ steps, ∃ call, prog.request taken.1 = some call ∧ call.opensSocket = true ∧ taken.2 = .handle h
  replies : ∀ taken ∈ steps, ∀ call, prog.request taken.1 = some call → call.opensSocket = true →
    taken.2.failed = true ∨ ∃ role, taken.2 = .handle (.socket role)

theorem Books.step {steps : List (Locals Pc × Reply)} {w : World (Locals Pc)} {index : Nat} {p : Proc (Locals Pc)}
    (books : Books prog setup release steps p.locals) (starts : Starts prog setup release iterCnt forked)
    (branches : Branches prog setup release forked) (turn : Turn prog w index p call r) :
    Books prog setup release (steps ++ [(p.locals, r)]) (prog.resume p.locals r) := by
  have accounted : Accounted setup release (closes prog steps) call r p.locals (prog.resume p.locals r) :=
    books.stage.accounted starts branches books.piped turn.request
  refine ⟨accounted.piped, ?_, ?_, ?_⟩
  · rw [closes_snoc turn.request]
    exact accounted.stage
  · intro h member
    rw [opens_snoc turn.request, List.mem_append] at member
    rcases member with before | now
    · rcases books.opened h before with kept | ⟨taken, earlier, rest⟩
      · exact .inl (accounted.kept kept)
      · exact .inr ⟨taken, List.mem_append_left _ earlier, rest⟩
    · rcases opened_cases now with ⟨id, rfl, rfl⟩ | ⟨opensSocket, rfl⟩
      · exact .inl (accounted.pipe id rfl rfl now)
      · exact .inr ⟨_, List.mem_append_right _ (List.mem_singleton_self _), call, turn.request, opensSocket, rfl⟩
  · intro taken member call' asked opensSocket
    rcases List.mem_append.mp member with before | now
    · exact books.replies taken before call' asked opensSocket
    · obtain rfl := List.mem_singleton.mp now
      obtain rfl := Option.some.inj (turn.request.symm.trans asked)
      exact socket_of_possible turn.possible opensSocket

theorem books_of_run {allowed : World (Locals Pc) → Label → Prop} {machine : Machine} {errno : Errno} {errored : Bool}
    {trace : List (World (Locals Pc) × Label)} {w : World (Locals Pc)} (starts : Starts prog setup release iterCnt forked)
    (branches : Branches prog setup release forked)
    (run : Run (step prog) allowed (World.boot machine (Locals.entry (setup .allocDiffs) errno errored)) trace w) :
    ∃ p, w.procs[0]? = some p ∧ Books prog setup release (ownSteps 0 trace) p.locals := by
  refine own_invariant (P := fun steps p => Books prog setup release steps p.locals) ?_ ?_ rfl ?_ run
  · exact fun steps p status books => books
  · exact fun w p call r steps _ turn books => books.step starts branches turn
  · refine ⟨⟨.inl rfl, .inl rfl⟩, .setup .allocDiffs rfl rfl rfl, ?_, ?_⟩
    · intro h member
      contradiction
    · intro taken member
      contradiction

/-- Back from the function, the process has closed its pipe ends and no socket. -/
theorem Books.closesOnce_iff {steps : List (Locals Pc × Reply)} (books : Books prog setup release steps l)
    (branches : Branches prog setup release forked) (returned : l.pc = release .returned) :
    ClosesOnce prog steps ↔ GetsNoSocket prog steps := by
  have all : closes prog steps = l.pipeEnds := by
    cases books.stage with
    | setup s pc => exact absurd (pc.symm.trans returned) (branches.apart s .returned)
    | branch inside => exact absurd returned (inside.release .returned)
    | closing fd pending pc =>
        have same := branches.injective (pc.symm.trans returned)
        contradiction
    | done pc all => exact all
  unfold ClosesOnce
  rw [all]
  constructor
  · intro once taken member call asked opensSocket
    rcases books.replies taken member call asked opensSocket with failed | ⟨role, obtained⟩
    · exact failed
    · have isOpen : Handle.socket role ∈ opens prog steps := by
        refine List.mem_flatMap.mpr ⟨taken, member, ?_⟩
        rw [asked, obtained]
        cases call <;> first | contradiction | simp [Call.opened]
      have closedOnce := once _ isOpen
      rw [List.count_eq_zero_of_not_mem (books.piped.no_socket role)] at closedOnce
      contradiction
  · intro noSocket h member
    rcases books.opened h member with pipeEnd | ⟨taken, earlier, call, asked, opensSocket, obtained⟩
    · exact books.piped.count pipeEnd
    · have failed := noSocket taken earlier call asked opensSocket
      rw [obtained] at failed
      contradiction

end Oreo.Bench.Socket
