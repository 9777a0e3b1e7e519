import Ciphr.LibTrace

/-!
Requests that come in at any time and are handled beside one another, each by a script, on a state that
they share. What is known of that state is a world, and worlds only grow: a request that came in after
another one was answered is handled in the world of that answer, or in one that has grown since.
-/

namespace Script

/-- A request that was answered, and how many others had been when it came in. -/
structure Answered (Request ε α : Type) where
  request : Request
  since : Nat
  ended : Except ε α

/-- What is done for a request, a step at a time. -/
inductive Stage (Call Request ε α : Type) where
  | arrives (request : Request)
  | calls (c : Call)
  | answers (answered : Answered Request ε α)

def Stage.Reply {Call Request ε α : Type} (Reply : Call → Type) : Stage Call Request ε α → Type
  | .arrives _ => Nat
  | .calls c => Reply c
  | .answers _ => Unit

variable {σ Call Request Event Outside ε α : Type} {Reply : Call → Type}

/-- The calls of a script, as steps for a request. -/
def staged {ε' α' : Type} : Script Call Reply ε' α' →
    Script (Stage Call Request ε α) (Stage.Reply Reply) ε (Except ε' α')
  | .done result => .done (.ok result)
  | .call c next => .call (.calls c) fun reply => (next reply).staged

/-- A request is handled, and then it is answered. -/
def attend (handler : Request → Script Call Reply ε α) (request : Request) :
    Script (Stage Call Request ε α) (Stage.Reply Reply) ε Unit :=
  .call (.arrives request) fun since =>
    (handler request).staged >>= fun ended => ask (.answers ⟨request, since, ended⟩) .ok

/-- The state that is shared, the requests that have come in, and those that were answered. -/
structure Attending (σ Request ε α : Type) where
  shared : σ
  arrived : List Request
  answered : List (Answered Request ε α)

/-- Anybody's requests, on a state that changes by what others do too. -/
def service (serve : σ → Event → Option σ) (answer : σ → Outside → (c : Call) → σ × Reply c)
    (handler : Request → Script Call Reply ε α) :
    Machine (Attending σ Request ε α) (Stage Call Request ε α) (Stage.Reply Reply) ε Event Outside
      Request where
  serve s event := (serve s.shared event).map fun shared => { s with shared := shared }
  answer s outside
    | .arrives request => ({ s with arrived := s.arrived ++ [request] }, s.answered.length)
    | .calls c => ({ s with shared := (answer s.shared outside c).1 }, (answer s.shared outside c).2)
    | .answers answered => ({ s with answered := s.answered ++ [answered] }, ())
  script := attend handler

/-! ### Worlds -/

variable {W : Type} [Preorder W]

/-- The replies to calls were given in worlds that grew from one to the other. -/
inductive Told (contract : Contract W Call Reply) : W → List (Act Call Reply) → W → Prop
  | nil {w w' : W} (h : w ≤ w') : Told contract w [] w'
  | cons {w w' w'' : W} {c : Call} {reply : Reply c} {acts : List (Act Call Reply)} (h : w ≤ w')
      (hreply : contract.answers c reply w') (hrest : Told contract w' acts w'') :
      Told contract w (⟨c, reply⟩ :: acts) w''

section Told

variable {contract : Contract W Call Reply} {w w' w'' : W} {acts : List (Act Call Reply)}

theorem Told.le (h : Told contract w acts w') : w ≤ w' := by
  induction h with
  | nil h => exact h
  | cons h _ _ ih => exact h.trans ih

theorem Told.mono (h : Told contract w acts w') (hle : w' ≤ w'') : Told contract w acts w'' := by
  induction h with
  | nil h => exact .nil (h.trans hle)
  | cons h hreply _ ih => exact .cons h hreply (ih hle)

/-- One more reply. -/
theorem Told.snoc {c : Call} {reply : Reply c} (h : Told contract w acts w') (hle : w' ≤ w'')
    (hreply : contract.answers c reply w'') : Told contract w (acts ++ [⟨c, reply⟩]) w'' := by
  induction h with
  | nil h => exact .cons (h.trans hle) hreply (.nil le_rfl)
  | cons h hfirst _ ih => exact .cons h hfirst (ih hle)

/-- Each of the replies. -/
theorem Told.answers (h : Told contract w acts w') {act : Act Call Reply} (hact : act ∈ acts) :
    ∃ between, w ≤ between ∧ between ≤ w' ∧ contract.answers act.1 act.2 between := by
  induction h with
  | nil h => cases hact
  | cons h hreply hrest ih =>
      rcases List.mem_cons.mp hact with rfl | hact
      · exact ⟨_, h, hrest.le, hreply⟩
      · obtain ⟨between, hafter, hbefore, hanswers⟩ := ih hact
        exact ⟨between, h.trans hafter, hbefore, hanswers⟩

end Told

/-- A request that was answered, what its script was told, and the worlds in which it came in and in
which it was answered. -/
structure Settled (W Call Request ε α : Type) (Reply : Call → Type) where
  answered : Answered Request ε α
  acts : List (Act Call Reply)
  first : W
  last : W

/-- A world, with everything that led to it. -/
structure History (W Call Request ε α : Type) (Reply : Call → Type) where
  world : W
  arrived : List Request
  settled : List (Settled W Call Request ε α Reply)

instance : Preorder (History W Call Request ε α Reply) where
  le h h' := h.world ≤ h'.world ∧ h.arrived <+: h'.arrived ∧ h.settled <+: h'.settled
  le_refl h := ⟨le_rfl, List.prefix_refl _, List.prefix_refl _⟩
  le_trans h h' h'' first second :=
    ⟨first.1.trans second.1, first.2.1.trans second.2.1, first.2.2.trans second.2.2⟩

variable (handler : Request → Script Call Reply ε α) (contract : Contract W Call Reply)
  (may : Request → Call → Prop)

/-- What the script of a request owes, and what it is told. -/
def attending : Contract (History W Call Request ε α Reply) (Stage Call Request ε α)
    (Stage.Reply Reply) where
  requires
    | .arrives _, _ => True
    | .calls c, h => ∃ request ∈ h.arrived, may request c
    | .answers answered, h => answered.request ∈ h.arrived ∧
        answered.since ≤ h.settled.length ∧ ∃ acts first,
        Runs (handler answered.request) acts answered.ended ∧ Told contract first acts h.world ∧
          ∀ earlier ∈ h.settled.take answered.since, earlier.last ≤ first
  answers
    | .arrives request, since, h => request ∈ h.arrived ∧ since = h.settled.length ∧
        ∀ earlier ∈ h.settled, earlier.last ≤ h.world
    | .calls c, reply, h => contract.answers c reply h.world
    | .answers _, _, _ => True

variable {handler contract may}

theorem take_of_initial {β : Type} {xs ys : List β} {n : Nat} (h : xs <+: ys) (hn : n ≤ xs.length) :
    ys.take n = xs.take n := by
  obtain ⟨more, rfl⟩ := h
  exact List.take_append_of_le_length hn

/-- What is left of a handler, after what it was told so far. -/
theorem keeps_staged {request : Request} {since : Nat} {first : W}
    {script : Script Call Reply ε α} {acts : List (Act Call Reply)}
    {h : History W Call Request ε α Reply}
    (hruns : ∀ rest result, Runs script rest result → Runs (handler request) (acts ++ rest) result)
    (hmay : script.Asks (fun _ _ => True) (may request)) (htold : Told contract first acts h.world)
    (harrived : request ∈ h.arrived) (hsince : since ≤ h.settled.length)
    (hearlier : ∀ earlier ∈ h.settled.take since, earlier.last ≤ first) :
    ((script.staged : Script (Stage Call Request ε α) (Stage.Reply Reply) ε (Except ε α)) >>=
        fun ended => ask (.answers ⟨request, since, ended⟩) .ok).Keeps
      (attending handler contract may) (fun _ _ => True) h := by
  induction script generalizing acts h with
  | done ended =>
      intro h' hle
      refine ⟨⟨hle.2.1.subset harrived, Nat.le_trans hsince hle.2.2.length_le, acts, first, ?_,
        htold.mono hle.1, ?_⟩, ?_⟩
      · have hended := hruns [] ended (.done ended)
        rwa [List.append_nil] at hended
      · dsimp only
        rw [take_of_initial hle.2.2 hsince]
        exact hearlier
      · intro reply later _ _
        exact trivial
  | call c next ih =>
      intro h' hle
      refine ⟨⟨request, hle.2.1.subset harrived, hmay.1⟩, fun reply later hlater hreply => ?_⟩
      have hgrown := hle.trans hlater
      refine ih reply ?_ (hmay.2 reply trivial) (htold.snoc hgrown.1 hreply)
        (hgrown.2.1.subset harrived) (Nat.le_trans hsince hgrown.2.2.length_le) ?_
      · intro rest result hrest
        rw [List.append_assoc]
        have hgoes : Runs (.call c next) (⟨c, reply⟩ :: rest) result := Runs.call (c := c) reply hrest
        exact hruns _ _ hgoes
      · rw [take_of_initial hgrown.2.2 hsince]
        exact hearlier

theorem keeps_attend {request : Request} {h : History W Call Request ε α Reply}
    (hmay : (handler request).Asks (fun _ _ => True) (may request)) :
    (attend handler request).Keeps (attending handler contract may) (fun _ _ => True) h := by
  intro h' _
  refine ⟨trivial, fun (since : Nat) later _ hcame => ?_⟩
  obtain ⟨harrived, hsince, hearlier⟩ := hcame
  have hruns : ∀ rest result, Runs (handler request) rest result →
      Runs (handler request) ([] ++ rest) result := fun _ _ hrest => hrest
  refine keeps_staged hruns hmay (.nil le_rfl) harrived (Nat.le_of_eq hsince) ?_
  intro earlier hmem
  exact hearlier earlier (List.mem_of_mem_take hmem)

/-- What is known of every request that was answered. -/
structure Settled.Sound (handler : Request → Script Call Reply ε α) (contract : Contract W Call Reply)
    (h : History W Call Request ε α Reply) (one : Settled W Call Request ε α Reply) : Prop where
  arrived : one.answered.request ∈ h.arrived
  runs : Runs (handler one.answered.request) one.acts one.answered.ended
  told : Told contract one.first one.acts one.last
  last : one.last ≤ h.world
  /-- Whatever was answered before the request came in was answered in a world before its own. -/
  since : ∀ earlier ∈ h.settled.take one.answered.since, earlier.last ≤ one.first
  bounded : one.answered.since ≤ h.settled.length

theorem Settled.Sound.mono {h h' : History W Call Request ε α Reply}
    {one : Settled W Call Request ε α Reply} (hone : one.Sound handler contract h) (hle : h ≤ h') :
    one.Sound handler contract h' where
  arrived := hle.2.1.subset hone.arrived
  runs := hone.runs
  told := hone.told
  last := hone.last.trans hle.1
  since := by
    rw [take_of_initial hle.2.2 hone.bounded]
    exact hone.since
  bounded := Nat.le_trans hone.bounded hle.2.2.length_le

/-- A history describes what the service has done so far. -/
structure Describes (describes : σ → List Request → W → Prop)
    (handler : Request → Script Call Reply ε α) (contract : Contract W Call Reply)
    (s : Attending σ Request ε α) (h : History W Call Request ε α Reply) : Prop where
  shared : describes s.shared s.arrived h.world
  arrived : h.arrived = s.arrived
  answered : h.settled.map (·.answered) = s.answered
  sound : ∀ one ∈ h.settled, one.Sound handler contract h

/-- Requests are answered in real time: where each step of the shared state is described by a world
that has grown, every request was told what it was told in worlds between the one in which it came in
and the one in which it was answered. -/
theorem service_described (may : Request → Call → Prop) (start : σ → Prop)
    (describes : σ → List Request → W → Prop) {serve : σ → Event → Option σ}
    {answer : σ → Outside → (c : Call) → σ × Reply c}
    (hstart : ∀ shared, start shared → ∃ w, describes shared [] w)
    (harrives : ∀ shared arrived request w, describes shared arrived w →
      describes shared (arrived ++ [request]) w)
    (hserve : ∀ shared arrived w event shared', describes shared arrived w →
      serve shared event = some shared' → ∃ w', w ≤ w' ∧ describes shared' arrived w')
    (hanswer : ∀ shared arrived w outside request c, describes shared arrived w →
      request ∈ arrived → may request c →
      ∃ w', w ≤ w' ∧ describes (answer shared outside c).1 arrived w' ∧
        contract.answers c (answer shared outside c).2 w')
    (hmay : ∀ request, (handler request).Asks (fun _ _ => True) (may request))
    {s : Running (Attending σ Request ε α) (Stage Call Request ε α) (Stage.Reply Reply) ε}
    (hs : Transition.Reachable
      (fun s => start s.shared.shared ∧ s.shared.arrived = [] ∧ s.shared.answered = [] ∧ s.scripts = [])
      (service serve answer handler).step (fun _ _ => True) s) :
    ∃ h, Describes describes handler contract s.shared h := by
  have hall : s.Described (attending handler contract may) (Describes describes handler contract) := by
    refine Machine.described ?_ ?_ ?_ ?_ hs
    · rintro ⟨⟨shared, arrived, answered⟩, scripts⟩ ⟨hshared, rfl, rfl, rfl⟩
      obtain ⟨w, hw⟩ := hstart shared hshared
      exact ⟨rfl, ⟨w, [], []⟩, hw, rfl, rfl, List.forall_mem_nil _⟩
    · rintro s h event s' hdescribed hstep
      obtain ⟨shared, hshared, rfl⟩ := Option.map_eq_some_iff.mp hstep
      obtain ⟨w, hle, hw⟩ := hserve _ _ _ _ _ hdescribed.shared hshared
      have hgrown : h ≤ { h with world := w } := ⟨hle, List.prefix_refl _, List.prefix_refl _⟩
      exact ⟨_, hgrown, hw, hdescribed.arrived, hdescribed.answered,
        fun one hone => (hdescribed.sound one hone).mono hgrown⟩
    · intro request h
      exact keeps_attend (hmay request)
    · rintro s h i outside stage hdescribed - - hrequires
      cases stage with
      | arrives request =>
          have hgrown : h ≤ { h with arrived := h.arrived ++ [request] } :=
            ⟨le_rfl, List.prefix_append _ _, List.prefix_refl _⟩
          refine ⟨_, hgrown, ⟨harrives _ _ _ _ hdescribed.shared, ?_, hdescribed.answered, ?_⟩, ?_, ?_, ?_⟩
          · dsimp only [service]
            rw [hdescribed.arrived]
          · exact fun one hone => (hdescribed.sound one hone).mono hgrown
          · exact List.mem_append_right _ (List.mem_singleton_self _)
          · dsimp only [service]
            rw [← hdescribed.answered, List.length_map]
          · exact fun earlier hearlier => (hdescribed.sound earlier hearlier).last
      | calls c =>
          obtain ⟨request, harrived, hcall⟩ := hrequires
          rw [hdescribed.arrived] at harrived
          obtain ⟨w, hle, hw, htold⟩ := hanswer _ _ _ outside _ c hdescribed.shared harrived hcall
          have hgrown : h ≤ { h with world := w } := ⟨hle, List.prefix_refl _, List.prefix_refl _⟩
          exact ⟨_, hgrown, ⟨hw, hdescribed.arrived, hdescribed.answered,
            fun one hone => (hdescribed.sound one hone).mono hgrown⟩, htold⟩
      | answers answered =>
          obtain ⟨harrived, hbounded, acts, first, hruns, htold, hearlier⟩ := hrequires
          have hgrown : h ≤ { h with settled := h.settled ++ [⟨answered, acts, first, h.world⟩] } :=
            ⟨le_rfl, List.prefix_refl _, List.prefix_append _ _⟩
          refine ⟨_, hgrown, ⟨hdescribed.shared, hdescribed.arrived, ?_, ?_⟩, trivial⟩
          · dsimp only [service]
            rw [List.map_append, hdescribed.answered, List.map_singleton]
          · intro one hone
            rcases List.mem_append.mp hone with hold | hnew
            · exact (hdescribed.sound one hold).mono hgrown
            · rw [List.mem_singleton.mp hnew]
              refine ⟨harrived, hruns, htold, le_rfl, ?_, Nat.le_trans hbounded hgrown.2.2.length_le⟩
              rw [take_of_initial hgrown.2.2 hbounded]
              exact hearlier
  obtain ⟨h, hdescribed, -⟩ := hall
  exact ⟨h, hdescribed⟩

end Script
