import Ciphr.ServerGate
import Ciphr.StoreHoneypots

/-!
`ciphr-server/src/state.rs`: the claims in front of the latch, and the tasks that touches of bait
schedule. A task writes its trip under the lock of the store; where it could not, it gives its claim back
and then records that the latch is missing, each on its own.
-/

namespace Ciphr

open Program

variable {δ ω φ : Type} [AuditDevice δ ω φ]

/-! ### Claims -/

/-- Which pieces of bait have a latch pending or open. -/
abbrev LatchClaims := List (BaitKind × String)

namespace LatchClaims

/-- Take the claim for one piece of bait, or report that something else holds it. -/
def claim (held : LatchClaims) (kind : BaitKind) (reference : String) : Bool × LatchClaims :=
  if held.contains (kind, reference) then (false, held) else (true, (kind, reference) :: held)

/-- Give a claim back. -/
def release (held : LatchClaims) (kind : BaitKind) (reference : String) : LatchClaims :=
  held.filter (· != (kind, reference))

end LatchClaims

/-! ### Tasks -/

/-- What a task that has not ended has still to do: to write its trip and all that follows a failure,
to give its claim back, or to record the failure. -/
inductive LatchStage where
  | writing
  | failed
  | released
  deriving DecidableEq, Repr

structure LatchTask where
  latch : Latch
  stage : LatchStage
  deriving DecidableEq, Repr

def Latch.bait (latch : Latch) : BaitKind × String := (latch.kind, latch.reference)

/-- What the trail says of a trip whose latch could not be written. -/
def latchFailedEntry : Entry :=
  (Entry.denied .honeypotTriggered "latch-failed").withDetail
    "the trip was recorded and the latch was not"

/-- A process and its tasks, with which bait was touched and what each write came to, the last one first. -/
structure LatchRun where
  trips : TripTable
  held : LatchClaims
  tasks : List LatchTask
  recorded : List Entry
  touched : List (BaitKind × String)
  written : List ((BaitKind × String) × Except StoreError Bool)

inductive LatchStep where
  | touch (latch : Latch)
  | write (index : Nat) (fault : TripTable.Fault) (now : Int)
  | release (index : Nat)
  | record (index : Nat)

namespace LatchRun

/-- A process that has just started. -/
def start (trips : TripTable) : LatchRun := ⟨trips, [], [], [], [], []⟩

/-- `latch_off_the_request_path`, up to the task that it schedules. -/
def touch (s : LatchRun) (latch : Latch) : LatchRun :=
  let claimed := s.held.claim latch.kind latch.reference
  { s with
    held := claimed.2
    tasks := if claimed.1 then s.tasks ++ [⟨latch, .writing⟩] else s.tasks
    touched := latch.bait :: s.touched }

/-- The write of a task. One that has not failed was the last of it. -/
def write (s : LatchRun) (index : Nat) (latch : Latch) (fault : TripTable.Fault) (now : Int) : LatchRun :=
  let latched := exec
    (TripTable.latchTrip fault latch.kind latch.reference latch.identity latch.tier now) s.trips
  { s with
    trips := latched.2
    tasks := match latched.1 with
      | .ok _ => s.tasks.eraseIdx index
      | .error _ => s.tasks.set index ⟨latch, .failed⟩
    written := (latch.bait, latched.1) :: s.written }

def step (s : LatchRun) : LatchStep → Option LatchRun
  | .touch latch => some (s.touch latch)
  | .write index fault now =>
      match s.tasks[index]? with
      | some ⟨latch, .writing⟩ => some (s.write index latch fault now)
      | _ => none
  | .release index =>
      match s.tasks[index]? with
      | some ⟨latch, .failed⟩ =>
          some { s with
            held := s.held.release latch.kind latch.reference
            tasks := s.tasks.set index ⟨latch, .released⟩ }
      | _ => none
  | .record index =>
      match s.tasks[index]? with
      | some ⟨_, .released⟩ =>
          some { s with tasks := s.tasks.eraseIdx index, recorded := s.recorded ++ [latchFailedEntry] }
      | _ => none

/-- The tasks of one piece of bait that have not ended. -/
def inFlight (s : LatchRun) (bait : BaitKind × String) : List LatchTask :=
  s.tasks.filter (·.latch.bait == bait)

/-- Those of them that have not given the claim back. -/
def holding (s : LatchRun) (bait : BaitKind × String) : List LatchTask :=
  (s.inFlight bait).filter (·.stage != .released)

def isOpen (s : LatchRun) (bait : BaitKind × String) : Bool := s.trips.any (·.opens bait.1 bait.2)

/-- What the last latch write of a piece of bait came to. -/
def lastWrite (s : LatchRun) (bait : BaitKind × String) : Option (Except StoreError Bool) :=
  (s.written.find? (·.1 == bait)).map (·.2)

end LatchRun

/-- What the process does for a touch is the touch. -/
theorem answer_latch {u : Unicode} (deployment : Deployment) (codec : Codec) (json : JsonExtract)
    (database : ω → Database) (s : Server δ ω) (outside : ApiOutside φ) (process : LatchRun)
    (latch : Latch) (hheld : process.held = s.latching) :
    let after := (Server.answer (u := u) deployment codec json database s outside
      (.latchOffTheRequestPath latch.kind latch.reference latch.identity latch.tier)).1
    (process.touch latch).held = after.latching ∧
      (process.touch latch).tasks = process.tasks ++
        (after.spawned.drop s.spawned.length).map (⟨·, .writing⟩) := by
  have hanswer : (Server.answer (u := u) deployment codec json database s outside
      (.latchOffTheRequestPath latch.kind latch.reference latch.identity latch.tier)).1 =
        if s.latching.contains (latch.kind, latch.reference) then s
        else { s with
          latching := (latch.kind, latch.reference) :: s.latching,
          spawned := s.spawned ++ [⟨latch.kind, latch.reference, latch.identity, latch.tier⟩] } :=
    apply_ite Prod.fst _ _ _
  rw [hanswer]
  unfold LatchRun.touch LatchClaims.claim
  rw [hheld]
  by_cases hclaimed : s.latching.contains (latch.kind, latch.reference) = true
  · simp only [hclaimed, if_true]
    simp
  · simp only [hclaimed]
    simp

/-! ### The invariant -/

/-- What a task holds the claim of. -/
def LatchTask.claimed (task : LatchTask) : Option (BaitKind × String) :=
  if task.stage = .released then none else some task.latch.bait

namespace LatchRun

variable {s s' : LatchRun} {latch : Latch} {bait : BaitKind × String}

def claims (s : LatchRun) : List (BaitKind × String) := s.tasks.filterMap LatchTask.claimed

/-- A claim is one task's, or its bait's trip is open; one that was given back was given back by a task
whose write had failed. -/
structure Sound (s : LatchRun) : Prop where
  single : s.claims.Nodup
  claimed : ∀ bait ∈ s.claims, bait ∈ s.held
  pending : ∀ bait ∈ s.held, bait ∈ s.claims ∨ s.isOpen bait = true
  failed : ∀ task ∈ s.tasks, task.stage = .failed → ∃ e, s.lastWrite task.latch.bait = some (.error e)
  given : ∀ bait ∈ s.touched, bait ∉ s.held → ∃ e, s.lastWrite bait = some (.error e)

theorem start_sound (trips : TripTable) : Sound (start trips) :=
  ⟨List.nodup_nil, List.forall_mem_nil _, List.forall_mem_nil _, List.forall_mem_nil _,
    List.forall_mem_nil _⟩

/-- A list around one of its elements. -/
theorem split_at {α : Type} {l : List α} {index : Nat} {a : α} (h : l[index]? = some a) :
    ∃ front later, l = front ++ a :: later ∧ l.eraseIdx index = front ++ later ∧
      ∀ b, l.set index b = front ++ b :: later := by
  induction l generalizing index with
  | nil => cases h
  | cons first l ih =>
      cases index with
      | zero =>
          cases h
          exact ⟨[], l, rfl, rfl, fun _ => rfl⟩
      | succ index =>
          obtain ⟨front, later, rfl, herase, hset⟩ := ih h
          refine ⟨first :: front, later, rfl, ?_, fun b => ?_⟩
          · rw [List.eraseIdx_cons_succ, herase]
            rfl
          · rw [List.set_cons_succ, hset b]
            rfl

theorem lastWrite_write_self (s : LatchRun) (index : Nat) (latch : Latch) (fault : TripTable.Fault)
    (now : Int) : (s.write index latch fault now).lastWrite latch.bait = some (exec
      (TripTable.latchTrip fault latch.kind latch.reference latch.identity latch.tier now) s.trips).1 := by
  unfold lastWrite write
  rw [List.find?_cons_of_pos (by exact beq_self_eq_true latch.bait)]
  rfl

theorem lastWrite_write_of_ne (s : LatchRun) (index : Nat) (fault : TripTable.Fault) (now : Int)
    (hne : latch.bait ≠ bait) : (s.write index latch fault now).lastWrite bait = s.lastWrite bait := by
  unfold lastWrite write
  rw [List.find?_cons_of_neg (by simpa using hne)]

/-- Nothing that the process does closes a trip. -/
theorem isOpen_write (s : LatchRun) (index : Nat) (latch : Latch) (fault : TripTable.Fault) (now : Int)
    (hopen : s.isOpen bait = true) : (s.write index latch fault now).isOpen bait = true := by
  unfold isOpen write at *
  rcases TripTable.latchTrip_cases fault s.trips latch.kind latch.reference latch.identity latch.tier now with
    ⟨e, hdone⟩ | ⟨-, hdone⟩ | ⟨-, hdone⟩
  · rwa [hdone]
  · rwa [hdone]
  · rw [hdone, List.any_append, hopen, Bool.true_or]

/-- A touch of bait whose claim is held schedules nothing. -/
theorem touch_of_held (h : latch.bait ∈ s.held) :
    s.touch latch = { s with touched := latch.bait :: s.touched } := by
  have hcontains : s.held.contains (latch.kind, latch.reference) = true := List.contains_iff_mem.mpr h
  unfold LatchRun.touch LatchClaims.claim
  rw [if_pos hcontains]
  rfl

theorem touch_of_free (h : latch.bait ∉ s.held) :
    s.touch latch = { s with
      held := latch.bait :: s.held
      tasks := s.tasks ++ [⟨latch, .writing⟩]
      touched := latch.bait :: s.touched } := by
  have hcontains : ¬ s.held.contains (latch.kind, latch.reference) = true := fun hmem =>
    h (List.contains_iff_mem.mp hmem)
  unfold LatchRun.touch LatchClaims.claim
  rw [if_neg hcontains]
  rfl

theorem Sound.touch (h : Sound s) (latch : Latch) : Sound (s.touch latch) := by
  by_cases hheld : latch.bait ∈ s.held
  · rw [touch_of_held hheld]
    refine ⟨h.single, h.claimed, h.pending, h.failed, fun bait hbait hnot => ?_⟩
    rcases List.mem_cons.mp hbait with rfl | hbait
    · exact absurd hheld hnot
    · exact h.given bait hbait hnot
  · have hclaims : (s.touch latch).claims = s.claims ++ [latch.bait] := by
      unfold claims
      rw [touch_of_free hheld, List.filterMap_append]
      rfl
    rw [touch_of_free hheld] at hclaims ⊢
    refine ⟨?_, ?_, ?_, ?_, ?_⟩
    · rw [hclaims, List.nodup_append]
      refine ⟨h.single, List.nodup_singleton _, fun bait hbait _ hsame => ?_⟩
      cases List.mem_singleton.mp hsame
      rintro rfl
      exact hheld (h.claimed _ hbait)
    · rw [hclaims]
      intro bait hbait
      rcases List.mem_append.mp hbait with hbait | hbait
      · exact List.mem_cons_of_mem _ (h.claimed bait hbait)
      · exact List.mem_singleton.mp hbait ▸ List.mem_cons_self ..
    · rw [hclaims]
      intro bait hbait
      rcases List.mem_cons.mp hbait with rfl | hbait
      · exact .inl (List.mem_append_right _ (List.mem_singleton_self _))
      · exact (h.pending bait hbait).imp_left (List.mem_append_left _)
    · intro task htask hstage
      rcases List.mem_append.mp htask with htask | htask
      · exact h.failed task htask hstage
      · cases List.mem_singleton.mp htask
        cases hstage
    · intro bait hbait hnot
      rcases List.mem_cons.mp hbait with rfl | hbait
      · exact absurd (List.mem_cons_self ..) hnot
      · exact h.given bait hbait fun hmem => hnot (List.mem_cons_of_mem _ hmem)

theorem claims_split (front later : List LatchTask) (task : LatchTask) (held : LatchClaims)
    (trips : TripTable) (recorded : List Entry) (touched : List (BaitKind × String))
    (written : List ((BaitKind × String) × Except StoreError Bool)) :
    claims ⟨trips, held, front ++ task :: later, recorded, touched, written⟩ =
      front.filterMap LatchTask.claimed ++ (task.claimed.toList ++ later.filterMap LatchTask.claimed) := by
  unfold claims
  rw [List.filterMap_append]
  cases hclaimed : task.claimed with
  | none => rw [List.filterMap_cons_none hclaimed, Option.toList_none, List.nil_append]
  | some bait => rw [List.filterMap_cons_some hclaimed]; rfl

/-- A claim that is given up is none of those that are left. -/
theorem not_mem_of_single {front later : List (BaitKind × String)}
    (h : (front ++ ([bait] ++ later)).Nodup) : bait ∉ front ++ later := by
  rw [List.singleton_append, List.nodup_middle, List.nodup_cons] at h
  exact h.1

/-- Every task that has failed is one with a claim. -/
theorem mem_claims {task : LatchTask} (htask : task ∈ s.tasks) (hstage : task.stage ≠ .released) :
    task.latch.bait ∈ s.claims :=
  List.mem_filterMap.mpr ⟨task, htask, if_neg hstage⟩

theorem Sound.write (h : Sound s) {index : Nat} (hindex : s.tasks[index]? = some ⟨latch, .writing⟩)
    (fault : TripTable.Fault) (now : Int) : Sound (s.write index latch fault now) := by
  obtain ⟨front, later, hsplit, herase, hset⟩ := split_at hindex
  have hclaims : s.claims = front.filterMap LatchTask.claimed ++
      ([latch.bait] ++ later.filterMap LatchTask.claimed) := by
    obtain ⟨trips, held, tasks, recorded, touched, written⟩ := s
    cases hsplit
    exact claims_split _ _ _ held trips recorded touched written
  have hown : latch.bait ∈ s.claims := by
    rw [hclaims]
    exact List.mem_append_right _ (List.mem_append_left _ (List.mem_singleton_self _))
  have hothers : latch.bait ∉ front.filterMap LatchTask.claimed ++ later.filterMap LatchTask.claimed :=
    not_mem_of_single (hclaims ▸ h.single)
  -- a failed task beside this one is another bait's
  have hfailed : ∀ task ∈ front ++ later, task.stage = .failed →
      ∃ e, (s.write index latch fault now).lastWrite task.latch.bait = some (.error e) := by
    intro task htask hstage
    have hne : latch.bait ≠ task.latch.bait := by
      intro hsame
      apply hothers
      rw [← List.filterMap_append, hsame]
      refine List.mem_filterMap.mpr ⟨task, htask, if_neg ?_⟩
      rw [hstage]
      exact LatchStage.noConfusion
    rw [lastWrite_write_of_ne s index fault now hne]
    refine h.failed task ?_ hstage
    rw [hsplit]
    rcases List.mem_append.mp htask with htask | htask
    · exact List.mem_append_left _ htask
    · exact List.mem_append_right _ (List.mem_cons_of_mem _ htask)
  have hgiven : ∀ bait ∈ s.touched, bait ∉ s.held →
      ∃ e, (s.write index latch fault now).lastWrite bait = some (.error e) := by
    intro bait hbait hnot
    have hne : latch.bait ≠ bait := by
      rintro rfl
      exact hnot (h.claimed _ hown)
    rw [lastWrite_write_of_ne s index fault now hne]
    exact h.given bait hbait hnot
  rcases TripTable.latchTrip_cases fault s.trips latch.kind latch.reference latch.identity latch.tier now with
    ⟨e, hdone⟩ | hdone
  · have htasks : (s.write index latch fault now).tasks = front ++ ⟨latch, .failed⟩ :: later := by
      unfold LatchRun.write
      rw [hdone]
      exact hset _
    have hsame : (s.write index latch fault now).claims = s.claims := by
      rw [hclaims]
      unfold claims
      rw [htasks, List.filterMap_append]
      rfl
    refine ⟨hsame ▸ h.single, hsame ▸ h.claimed, fun bait hbait => ?_, fun task htask hstage => ?_, hgiven⟩
    · rw [hsame]
      exact (h.pending bait hbait).imp_right (isOpen_write s index latch fault now)
    · rw [htasks] at htask
      rcases List.mem_append.mp htask with htask | htask
      · exact hfailed task (List.mem_append_left _ htask) hstage
      · rcases List.mem_cons.mp htask with rfl | htask
        · rw [lastWrite_write_self, hdone]
          exact ⟨e, rfl⟩
        · exact hfailed task (List.mem_append_right _ htask) hstage
  · have htasks : (s.write index latch fault now).tasks = front ++ later := by
      unfold LatchRun.write
      rcases hdone with ⟨-, hdone⟩ | ⟨-, hdone⟩
      · rw [hdone]
        exact herase
      · rw [hdone]
        exact herase
    have hrest : (s.write index latch fault now).claims =
        front.filterMap LatchTask.claimed ++ later.filterMap LatchTask.claimed := by
      unfold claims
      rw [htasks, List.filterMap_append]
    have hopen : (s.write index latch fault now).isOpen latch.bait = true := by
      unfold isOpen LatchRun.write
      rcases hdone with ⟨hopen, hdone⟩ | ⟨-, hdone⟩
      · rw [hdone]
        exact hopen
      · rw [hdone, List.any_append, List.any_cons]
        have hnew := TripTable.newTrip_opens s.trips latch.kind latch.reference latch.identity latch.tier now
        rw [show latch.bait = (latch.kind, latch.reference) from rfl, hnew, Bool.true_or, Bool.or_true]
    have hsub : (s.write index latch fault now).claims.Sublist s.claims := by
      rw [hrest, hclaims]
      exact (List.Sublist.refl _).append (List.sublist_append_right _ _)
    refine ⟨h.single.sublist hsub, fun bait hbait => h.claimed bait (hsub.subset hbait),
      fun bait hbait => ?_, fun task htask hstage => hfailed task (htasks ▸ htask) hstage, hgiven⟩
    rcases h.pending bait hbait with hclaim | hwas
    · by_cases hsame : bait = latch.bait
      · exact .inr (hsame ▸ hopen)
      · left
        rw [hclaims] at hclaim
        rw [hrest]
        simp only [List.mem_append, List.mem_singleton, hsame, false_or] at hclaim ⊢
        exact hclaim
    · exact .inr (isOpen_write s index latch fault now hwas)

theorem Sound.release (h : Sound s) {index : Nat} (hindex : s.tasks[index]? = some ⟨latch, .failed⟩) :
    Sound { s with
      held := s.held.release latch.kind latch.reference
      tasks := s.tasks.set index ⟨latch, .released⟩ } := by
  obtain ⟨front, later, hsplit, -, hset⟩ := split_at hindex
  obtain ⟨trips, held, tasks, recorded, touched, written⟩ := s
  have htasks : tasks = front ++ ⟨latch, .failed⟩ :: later := hsplit
  subst htasks
  have hclaims := claims_split front later ⟨latch, .failed⟩ held trips recorded touched written
  have hothers : latch.bait ∉ front.filterMap LatchTask.claimed ++ later.filterMap LatchTask.claimed :=
    not_mem_of_single (hclaims ▸ h.single)
  have hrest : claims ⟨trips, held.release latch.kind latch.reference, front ++ ⟨latch, .released⟩ :: later,
      recorded, touched, written⟩ =
        front.filterMap LatchTask.claimed ++ later.filterMap LatchTask.claimed :=
    claims_split _ _ _ _ trips recorded touched written
  have hheld : ∀ bait, bait ∈ held.release latch.kind latch.reference ↔ bait ∈ held ∧ bait ≠ latch.bait := by
    intro bait
    unfold LatchClaims.release
    rw [List.mem_filter, bne_iff_ne]
    rfl
  have hsub : (front.filterMap LatchTask.claimed ++ later.filterMap LatchTask.claimed).Sublist
      (claims ⟨trips, held, front ++ ⟨latch, .failed⟩ :: later, recorded, touched, written⟩) := by
    rw [hclaims]
    exact (List.Sublist.refl _).append (List.sublist_append_right _ _)
  simp only [hset]
  refine ⟨?_, ?_, ?_, ?_, ?_⟩
  · rw [hrest]
    exact h.single.sublist hsub
  · rw [hrest]
    intro bait hbait
    refine (hheld bait).mpr ⟨h.claimed bait (hsub.subset hbait), ?_⟩
    rintro rfl
    exact hothers hbait
  · rw [hrest]
    intro bait hbait
    obtain ⟨hbait, hne⟩ := (hheld bait).mp hbait
    refine (h.pending bait hbait).imp_left fun hclaim => ?_
    rw [hclaims] at hclaim
    simp only [List.mem_append, Option.mem_toList] at hclaim ⊢
    rcases hclaim with hclaim | hown | hclaim
    · exact .inl hclaim
    · cases hown
      exact absurd rfl hne
    · exact .inr hclaim
  · intro task htask hstage
    refine h.failed task ?_ hstage
    rcases List.mem_append.mp htask with htask | htask
    · exact List.mem_append_left _ htask
    · rcases List.mem_cons.mp htask with rfl | htask
      · cases hstage
      · exact List.mem_append_right _ (List.mem_cons_of_mem _ htask)
  · intro bait hbait hnot
    by_cases hmem : bait ∈ held
    · have hsame : bait = latch.bait := by
        by_contra hne
        exact hnot ((hheld bait).mpr ⟨hmem, hne⟩)
      rw [hsame]
      exact h.failed ⟨latch, .failed⟩ (List.mem_append_right _ (List.mem_cons_self ..)) rfl
    · exact h.given bait hbait hmem

theorem Sound.record (h : Sound s) {index : Nat} (hindex : s.tasks[index]? = some ⟨latch, .released⟩) :
    Sound { s with tasks := s.tasks.eraseIdx index, recorded := s.recorded ++ [latchFailedEntry] } := by
  obtain ⟨front, later, hsplit, herase, -⟩ := split_at hindex
  obtain ⟨trips, held, tasks, recorded, touched, written⟩ := s
  cases hsplit
  have hsame : claims ⟨trips, held, front ++ later, recorded ++ [latchFailedEntry], touched, written⟩ =
      claims ⟨trips, held, front ++ ⟨latch, .released⟩ :: later, recorded, touched, written⟩ := by
    rw [claims_split]
    exact List.filterMap_append
  simp only [herase]
  refine ⟨hsame ▸ h.single, hsame ▸ h.claimed, fun bait hbait => ?_, fun task htask hstage => ?_, h.given⟩
  · rw [hsame]
    exact h.pending bait hbait
  · refine h.failed task ?_ hstage
    rcases List.mem_append.mp htask with htask | htask
    · exact List.mem_append_left _ htask
    · exact List.mem_append_right _ (List.mem_cons_of_mem _ htask)

/-- What a step is of. -/
theorem step_cases {action : LatchStep} (h : s.step action = some s') :
    (∃ latch, action = .touch latch ∧ s' = s.touch latch) ∨
    (∃ index latch fault now, action = .write index fault now ∧
      s.tasks[index]? = some ⟨latch, .writing⟩ ∧ s' = s.write index latch fault now) ∨
    (∃ index latch, action = .release index ∧ s.tasks[index]? = some ⟨latch, .failed⟩ ∧ s' = { s with
      held := s.held.release latch.kind latch.reference
      tasks := s.tasks.set index ⟨latch, .released⟩ }) ∨
    ∃ index latch, action = .record index ∧ s.tasks[index]? = some ⟨latch, .released⟩ ∧ s' = { s with
      tasks := s.tasks.eraseIdx index, recorded := s.recorded ++ [latchFailedEntry] } := by
  cases action with
  | touch latch => exact .inl ⟨latch, rfl, (Option.some.inj h).symm⟩
  | write index fault now =>
      unfold step at h
      dsimp only at h
      split at h
      · rename_i latch hindex
        exact .inr (.inl ⟨index, latch, fault, now, rfl, hindex, (Option.some.inj h).symm⟩)
      · cases h
  | release index =>
      unfold step at h
      dsimp only at h
      split at h
      · rename_i latch hindex
        exact .inr (.inr (.inl ⟨index, latch, rfl, hindex, (Option.some.inj h).symm⟩))
      · cases h
  | record index =>
      unfold step at h
      dsimp only at h
      split at h
      · rename_i latch hindex
        exact .inr (.inr (.inr ⟨index, latch, rfl, hindex, (Option.some.inj h).symm⟩))
      · cases h

theorem step_sound {action : LatchStep} (h : Sound s) (hstep : s.step action = some s') : Sound s' := by
  rcases step_cases hstep with ⟨latch, -, rfl⟩ | ⟨index, latch, fault, now, -, hindex, rfl⟩ |
    ⟨index, latch, -, hindex, rfl⟩ | ⟨index, latch, -, hindex, rfl⟩
  · exact h.touch latch
  · exact h.write hindex fault now
  · exact h.release hindex
  · exact h.record hindex

/-! ### What is in flight -/

/-- A bait is settled: its trip is open, or the last write of it failed and the next touch schedules
another. -/
def Settled (s : LatchRun) (bait : BaitKind × String) : Prop :=
  s.isOpen bait = true ∨ (∃ e, s.lastWrite bait = some (.error e)) ∧
    ∀ latch : Latch, latch.bait = bait → (s.touch latch).tasks = s.tasks ++ [⟨latch, .writing⟩]

/-- A touched bait of which nothing is in flight is settled. -/
theorem Sound.settled (h : Sound s) (htouched : bait ∈ s.touched) (hnone : s.inFlight bait = []) :
    s.Settled bait := by
  have hclaims : bait ∉ s.claims := by
    intro hmem
    obtain ⟨task, htask, hclaimed⟩ := List.mem_filterMap.mp hmem
    unfold LatchTask.claimed at hclaimed
    split at hclaimed
    · cases hclaimed
    · have hflight : task ∈ s.inFlight bait :=
        List.mem_filter.mpr ⟨htask, beq_iff_eq.mpr (Option.some.inj hclaimed)⟩
      rw [hnone] at hflight
      cases hflight
  by_cases hheld : bait ∈ s.held
  · exact .inl ((h.pending bait hheld).resolve_left hclaims)
  · refine .inr ⟨h.given bait htouched hheld, fun latch hlatch => ?_⟩
    rw [touch_of_free (hlatch ▸ hheld)]

/-- At most one task of each piece of bait has not ended. -/
def AtMostOne (s : LatchRun) : Prop := ∀ bait, (s.inFlight bait).length ≤ 1

/-- No task of the bait is still recording its failure when a touch would schedule another. -/
def MayTouch (s : LatchRun) (latch : Latch) : Prop :=
  latch.bait ∈ s.held ∨ ∀ task ∈ s.inFlight latch.bait, task.stage ≠ .released

def StepOk (s : LatchRun) : LatchStep → Prop
  | .touch latch => s.MayTouch latch
  | _ => True

theorem inFlight_touch_of_free (h : latch.bait ∉ s.held) (bait : BaitKind × String) :
    (s.touch latch).inFlight bait = s.inFlight bait ++ if latch.bait = bait then [⟨latch, .writing⟩] else [] := by
  unfold inFlight
  rw [touch_of_free h, List.filter_append]
  congr 1
  split
  · rename_i hsame
    exact List.filter_cons_of_pos (beq_iff_eq.mpr hsame)
  · rename_i hne
    exact List.filter_cons_of_neg fun hsame => hne (beq_iff_eq.mp hsame)

/-- A touch keeps at most one task of each bait in flight exactly where no task of its bait is still
recording a failure, or it schedules nothing. -/
theorem Sound.atMostOne_touch_iff (h : Sound s) (hone : s.AtMostOne) (latch : Latch) :
    (s.touch latch).AtMostOne ↔ s.MayTouch latch := by
  by_cases hheld : latch.bait ∈ s.held
  · rw [touch_of_held hheld]
    exact iff_of_true hone (.inl hheld)
  · constructor
    · intro hafter
      refine .inr fun task htask => ?_
      have hlength := hafter latch.bait
      rw [inFlight_touch_of_free hheld, if_pos rfl, List.length_append, List.length_singleton] at hlength
      have hnone : s.inFlight latch.bait = [] := List.eq_nil_of_length_eq_zero (by omega)
      rw [hnone] at htask
      cases htask
    · intro hmay bait
      rw [inFlight_touch_of_free hheld]
      by_cases hsame : latch.bait = bait
      · subst hsame
        have hnone : s.inFlight latch.bait = [] := by
          rw [List.eq_nil_iff_forall_not_mem]
          intro task htask
          have hstage := hmay.resolve_left hheld task htask
          obtain ⟨htask, hbait⟩ := List.mem_filter.mp htask
          have hclaim := mem_claims htask hstage
          rw [beq_iff_eq.mp hbait] at hclaim
          exact hheld (h.claimed _ hclaim)
        rw [hnone, if_pos rfl]
        exact le_refl 1
      · rw [if_neg hsame, List.append_nil]
        exact hone bait

/-- What is in flight stays so or ends, in every step that is no touch. -/
theorem inFlight_length_le {index : Nat} {task : LatchTask} (hindex : s.tasks[index]? = some task)
    (task' : LatchTask) (hsame : task'.latch = task.latch) (tasks : List LatchTask)
    (htasks : tasks = s.tasks.set index task' ∨ tasks = s.tasks.eraseIdx index) (bait : BaitKind × String) :
    (tasks.filter (·.latch.bait == bait)).length ≤ (s.inFlight bait).length := by
  obtain ⟨front, later, hsplit, herase, hset⟩ := split_at hindex
  unfold inFlight
  rw [hsplit]
  rcases htasks with rfl | rfl
  · rw [hset, List.filter_append, List.filter_append, List.length_append, List.length_append,
      List.filter_cons, List.filter_cons, hsame]
    split
    · rw [List.length_cons, List.length_cons]
    · exact le_refl _
  · rw [herase, List.filter_append, List.filter_append]
    exact ((List.Sublist.refl _).append ((List.sublist_cons_self _ _).filter _)).length_le

theorem step_atMostOne {action : LatchStep} (h : Sound s) (hone : s.AtMostOne) (hok : s.StepOk action)
    (hstep : s.step action = some s') : s'.AtMostOne := by
  rcases step_cases hstep with ⟨latch, rfl, rfl⟩ | ⟨index, latch, fault, now, -, hindex, rfl⟩ |
    ⟨index, latch, -, hindex, rfl⟩ | ⟨index, latch, -, hindex, rfl⟩
  · exact (h.atMostOne_touch_iff hone latch).mpr hok
  · intro bait
    refine le_trans (inFlight_length_le hindex ⟨latch, .failed⟩ rfl _ ?_ bait) (hone bait)
    unfold LatchRun.write
    dsimp only
    split
    · exact .inr rfl
    · exact .inl rfl
  · exact fun bait => (inFlight_length_le hindex ⟨latch, .released⟩ rfl _ (.inl rfl) bait).trans
      (hone bait)
  · exact fun bait => (inFlight_length_le hindex ⟨latch, .released⟩ rfl _ (.inr rfl) bait).trans
      (hone bait)

/-- The states of a process that was started on a table of trips. -/
def Reached (ok : LatchRun → LatchStep → Prop) (trips : TripTable) (s : LatchRun) : Prop :=
  Transition.Reachable (· = start trips) step ok s

variable {trips : TripTable} {ok : LatchRun → LatchStep → Prop}

theorem Reached.sound (h : Reached ok trips s) : Sound s := by
  refine Transition.Reachable.invariant ?_ (fun _ _ _ hs _ hstep => step_sound hs hstep) h
  rintro s rfl
  exact start_sound trips

theorem Reached.atMostOne (h : Reached StepOk trips s) : s.AtMostOne := by
  have hboth : Sound s ∧ s.AtMostOne := by
    refine @Transition.Reachable.invariant _ _ _ _ _ (fun s => Sound s ∧ s.AtMostOne) ?_
      (fun _ _ _ hs hok hstep => ⟨step_sound hs.1 hstep, step_atMostOne hs.1 hs.2 hok hstep⟩) s h
    rintro s rfl
    exact ⟨start_sound trips, fun _ => Nat.zero_le 1⟩
  exact hboth.2

/-- What a touched bait is owed in every run of a process. -/
def Owed (ok : LatchRun → LatchStep → Prop) (trips : TripTable) : Prop :=
  ∀ s, Reached ok trips s → s.AtMostOne ∧ ∀ bait ∈ s.touched, s.inFlight bait = [] → s.Settled bait

/-- The table latches every bait. A process keeps at most one task of each bait in flight as long as no
touch schedules one while a task of its bait is still recording a failure, and such a touch breaks it;
what nothing is in flight of is settled in every run. -/
theorem latch_once (trips : TripTable) :
    (trips.Kept → trips.Latched ∧ Owed StepOk trips) ∧
      ∀ s, Reached (fun _ _ => True) trips s →
        (∀ bait ∈ s.touched, s.inFlight bait = [] → s.Settled bait) ∧
          (s.AtMostOne → ∀ latch, (s.touch latch).AtMostOne ↔ s.MayTouch latch) :=
  ⟨fun htrips => ⟨htrips.latched, fun _ hs =>
      ⟨hs.atMostOne, fun _ htouched hnone => hs.sound.settled htouched hnone⟩⟩,
    fun _ hs => ⟨fun _ htouched hnone => hs.sound.settled htouched hnone,
      fun hone latch => hs.sound.atMostOne_touch_iff hone latch⟩⟩

end LatchRun

namespace Sample

/-- A honeypot token that is presented twice. -/
def presentedBait : Latch := ⟨.token, "tok_bait", none, .alert⟩

def lockedTable : TripTable.Fault := ⟨some "database is locked", none, none⟩

/-- The second touch comes when the first task has given its claim back and is about to record. -/
def overlapping : List LatchStep :=
  [.touch presentedBait, .write 0 lockedTable 10, .release 0, .touch presentedBait]

/-- A table on which the token's trip was opened and cleared before. -/
def tripEvents : List (TripTable.Op × TripTable.Fault × Int) :=
  [(.latchTrip .token "tok_bait" none .alert, TripTable.noFault, 1), (.clearTrips, TripTable.noFault, 2)]

def clearedTrips : TripTable := (Transition.run TripTable.step [] tripEvents).getD []

/-- The process that the second touch comes to. -/
def recordingFailure : LatchRun :=
  (Transition.run LatchRun.step (.start clearedTrips) (overlapping.take 3)).getD (.start [])

theorem clearedTrips_latched :
    (clearedTrips.map (·.clearedAt) = [some 2] ∧ clearedTrips.Latched ∧
      LatchRun.Owed LatchRun.StepOk clearedTrips) ∧
      recordingFailure.AtMostOne ∧ ¬ (recordingFailure.touch presentedBait).AtMostOne := by
  have hkept : clearedTrips.Kept :=
    Transition.reachable_of_steps tripEvents (.start rfl) (fun _ _ _ _ _ => trivial)
      (by decide +kernel : Transition.run TripTable.step [] tripEvents = some clearedTrips)
  have hreached : LatchRun.Reached (fun _ _ => True) clearedTrips recordingFailure :=
    Transition.reachable_of_steps (overlapping.take 3) (.start rfl) (fun _ _ _ _ _ => trivial) rfl
  have htasks : recordingFailure.tasks = [⟨presentedBait, .released⟩] := rfl
  have hheld : recordingFailure.held = [] := rfl
  have hone : recordingFailure.AtMostOne := by
    intro bait
    unfold LatchRun.inFlight
    rw [htasks]
    exact List.length_filter_le _ _
  refine ⟨⟨by decide +kernel, (LatchRun.latch_once clearedTrips).1 hkept⟩, hone, ?_⟩
  rw [((LatchRun.latch_once clearedTrips).2 recordingFailure hreached).2 hone presentedBait]
  rintro (hmem | hnone)
  · rw [hheld] at hmem
    cases hmem
  · refine hnone ⟨presentedBait, .released⟩ ?_ rfl
    unfold LatchRun.inFlight
    rw [htasks]
    exact List.mem_filter.mpr ⟨List.mem_singleton_self _, rfl⟩

theorem overlapping_tasks :
    (∃ s, Transition.run LatchRun.step (.start []) overlapping = some s ∧
      s.tasks = [⟨presentedBait, .released⟩, ⟨presentedBait, .writing⟩]) ∧
      ¬ ∀ trips : TripTable, trips.Kept → LatchRun.Owed (fun _ _ => True) trips := by
  have hrun : ∃ s, Transition.run LatchRun.step (.start []) overlapping = some s ∧
      s.tasks = [⟨presentedBait, .released⟩, ⟨presentedBait, .writing⟩] :=
    ⟨_, rfl, rfl⟩
  refine ⟨hrun, fun howed => ?_⟩
  obtain ⟨s, hs, htasks⟩ := hrun
  have hreached : LatchRun.Reached (fun _ _ => True) [] s :=
    Transition.reachable_of_steps overlapping (.start rfl) (fun _ _ _ _ _ => trivial) hs
  have hone := (howed [] (.start rfl) s hreached).1 presentedBait.bait
  unfold LatchRun.inFlight at hone
  rw [htasks] at hone
  exact absurd hone (by decide)

end Sample

end Ciphr
