import Ciphr.LibScript

/-!
What a script has asked and been told by the time it ends. Nothing is assumed of whoever answers: the
replies of a run are any replies, so what holds of every run holds beside any other scripts and
whatever fails.
-/

namespace Script

variable {Call : Type} {Reply : Call → Type} {ε ε' α β : Type}

/-- A call and the reply to it. -/
abbrev Act (Call : Type) (Reply : Call → Type) := (c : Call) × Reply c

/-- The script ends with the result after these calls and replies. -/
inductive Runs : Script Call Reply ε α → List (Act Call Reply) → Except ε α → Prop where
  | done (result : Except ε α) : Runs (.done result) [] result
  | call {c : Call} {next : Reply c → Script Call Reply ε α} {acts : List (Act Call Reply)}
      {result : Except ε α} (reply : Reply c) (h : Runs (next reply) acts result) :
      Runs (.call c next) (⟨c, reply⟩ :: acts) result

/-- How a script ends, as a result of its own. -/
def outcome : Script Call Reply ε α → Script Call Reply ε' (Except ε α)
  | .done result => .done (.ok result)
  | .call c next => .call c fun reply => (next reply).outcome

/-- A script whose error is turned into another. -/
def mapError (f : ε → ε') : Script Call Reply ε α → Script Call Reply ε' α
  | .done result => .done (result.mapError f)
  | .call c next => .call c fun reply => (next reply).mapError f

variable {script : Script Call Reply ε α} {acts : List (Act Call Reply)} {result : Except ε α}

theorem runs_done_iff {ended : Except ε α} :
    Runs (.done ended : Script Call Reply ε α) acts result ↔ acts = [] ∧ result = ended := by
  constructor
  · intro h
    cases h
    exact ⟨rfl, rfl⟩
  · rintro ⟨rfl, rfl⟩
    exact .done _

@[simp] theorem runs_pure_iff {a : α} :
    Runs (pure a : Script Call Reply ε α) acts result ↔ acts = [] ∧ result = .ok a :=
  runs_done_iff

@[simp] theorem runs_ofExcept_iff {ended : Except ε α} :
    Runs (ofExcept ended : Script Call Reply ε α) acts result ↔ acts = [] ∧ result = ended :=
  runs_done_iff

theorem runs_call_iff {c : Call} {next : Reply c → Script Call Reply ε α} :
    Runs (.call c next) acts result ↔
      ∃ reply rest, acts = ⟨c, reply⟩ :: rest ∧ Runs (next reply) rest result := by
  constructor
  · intro h
    cases h with
    | call reply h => exact ⟨reply, _, rfl, h⟩
  · rintro ⟨reply, rest, rfl, h⟩
    exact .call reply h

@[simp] theorem runs_ask_iff {c : Call} {f : Reply c → Except ε α} :
    Runs (ask c f) acts result ↔ ∃ reply, acts = [⟨c, reply⟩] ∧ result = f reply := by
  unfold ask
  rw [runs_call_iff]
  constructor
  · rintro ⟨reply, rest, rfl, h⟩
    obtain ⟨rfl, rfl⟩ := runs_done_iff.mp h
    exact ⟨reply, rfl, rfl⟩
  · rintro ⟨reply, rfl, rfl⟩
    exact ⟨reply, [], rfl, .done _⟩

/-- A call whose reply is never an error, and what follows it. -/
theorem runs_asked_bind_iff {c : Call} {g : Reply c → α} {f : α → Script Call Reply ε β}
    {result : Except ε β} :
    Runs ((ask c fun reply => .ok (g reply)) >>= f) acts result ↔
      ∃ reply rest, acts = ⟨c, reply⟩ :: rest ∧ Runs (f (g reply)) rest result :=
  runs_call_iff

/-- A run of two scripts in a row: the first one stops with an error, or the second one takes over. -/
theorem runs_bind_iff {f : α → Script Call Reply ε β} {result : Except ε β} :
    Runs (script >>= f) acts result ↔
      (∃ e, Runs script acts (.error e) ∧ result = .error e) ∨
        ∃ a front rest, acts = front ++ rest ∧ Runs script front (.ok a) ∧
          Runs (f a) rest result := by
  change Runs (script.bind f) acts result ↔ _
  induction script generalizing acts with
  | done ended =>
      cases ended with
      | error e =>
          change Runs (.done (.error e)) acts result ↔ _
          simp only [runs_done_iff, Except.error.injEq, reduceCtorEq, and_false, false_and,
            exists_false, or_false]
          constructor
          · rintro ⟨rfl, rfl⟩
            exact ⟨e, ⟨rfl, rfl⟩, rfl⟩
          · rintro ⟨_, ⟨rfl, rfl⟩, rfl⟩
            exact ⟨rfl, rfl⟩
      | ok a =>
          change Runs (f a) acts result ↔ _
          simp only [runs_done_iff, reduceCtorEq, and_false, false_and, exists_false, false_or]
          constructor
          · intro h
            exact ⟨a, [], acts, rfl, ⟨rfl, rfl⟩, h⟩
          · rintro ⟨a', front, rest, rfl, ⟨rfl, ha⟩, h⟩
            cases ha
            exact h
  | call c next ih =>
      change Runs (.call c fun reply => (next reply).bind f) acts result ↔ _
      rw [runs_call_iff]
      constructor
      · rintro ⟨reply, rest, rfl, h⟩
        rcases (ih reply).mp h with ⟨e, herror, rfl⟩ | ⟨a, front, rest', rfl, hok, hrest⟩
        · exact .inl ⟨e, .call reply herror, rfl⟩
        · exact .inr ⟨a, ⟨c, reply⟩ :: front, rest', rfl, .call reply hok, hrest⟩
      · rintro (⟨e, herror, rfl⟩ | ⟨a, front, rest, rfl, hok, hrest⟩)
        · obtain ⟨reply, rest, rfl, h⟩ := runs_call_iff.mp herror
          exact ⟨reply, rest, rfl, (ih reply).mpr (.inl ⟨e, h, rfl⟩)⟩
        · obtain ⟨reply, rest', rfl, h⟩ := runs_call_iff.mp hok
          exact ⟨reply, rest' ++ rest, rfl, (ih reply).mpr (.inr ⟨a, rest', rest, rfl, h, hrest⟩)⟩

theorem Runs.bind {f : α → Script Call Reply ε β} {a : α} {front rest : List (Act Call Reply)}
    {result : Except ε β} (h : Runs script front (.ok a)) (hrest : Runs (f a) rest result) :
    Runs (script >>= f) (front ++ rest) result :=
  runs_bind_iff.mpr (.inr ⟨a, front, rest, rfl, h, hrest⟩)

theorem Runs.bind_error {f : α → Script Call Reply ε β} {e : ε} (h : Runs script acts (.error e)) :
    Runs (script >>= f) acts (.error e) :=
  runs_bind_iff.mpr (.inl ⟨e, h, rfl⟩)

theorem Runs.ask_bind {c : Call} {g : Reply c → Except ε α} {f : α → Script Call Reply ε β}
    {reply : Reply c} {a : α} {rest : List (Act Call Reply)} {result : Except ε β}
    (hreply : g reply = .ok a) (hrest : Runs (f a) rest result) :
    Runs (ask c g >>= f) (⟨c, reply⟩ :: rest) result :=
  (runs_ask_iff.mpr ⟨reply, rfl, hreply.symm⟩).bind hrest

theorem Runs.ofExcept_bind {ended : Except ε α} {f : α → Script Call Reply ε β} {a : α}
    {rest : List (Act Call Reply)} {result : Except ε β} (hended : ended = .ok a)
    (hrest : Runs (f a) rest result) : Runs (ofExcept ended >>= f) rest result := by
  rw [hended]
  exact hrest

theorem runs_outcome_iff {ended : Except ε' (Except ε α)} :
    Runs (outcome script) acts ended ↔ ∃ result, Runs script acts result ∧ ended = .ok result := by
  induction script generalizing acts with
  | done result =>
      change Runs (.done (.ok result)) acts ended ↔ _
      simp only [runs_done_iff]
      constructor
      · rintro ⟨rfl, rfl⟩
        exact ⟨result, ⟨rfl, rfl⟩, rfl⟩
      · rintro ⟨_, ⟨rfl, rfl⟩, rfl⟩
        exact ⟨rfl, rfl⟩
  | call c next ih =>
      change Runs (.call c fun reply => (next reply).outcome) acts ended ↔ _
      simp only [runs_call_iff, ih]
      constructor
      · rintro ⟨reply, rest, rfl, result, h, rfl⟩
        exact ⟨result, ⟨reply, rest, rfl, h⟩, rfl⟩
      · rintro ⟨result, ⟨reply, rest, rfl, h⟩, rfl⟩
        exact ⟨reply, rest, rfl, result, h, rfl⟩

theorem runs_mapError_iff {f : ε → ε'} {ended : Except ε' α} :
    Runs (mapError f script) acts ended ↔ ∃ result, Runs script acts result ∧ ended = result.mapError f := by
  induction script generalizing acts with
  | done result =>
      change Runs (.done (result.mapError f)) acts ended ↔ _
      simp only [runs_done_iff]
      constructor
      · rintro ⟨rfl, rfl⟩
        exact ⟨result, ⟨rfl, rfl⟩, rfl⟩
      · rintro ⟨_, ⟨rfl, rfl⟩, rfl⟩
        exact ⟨rfl, rfl⟩
  | call c next ih =>
      change Runs (.call c fun reply => (next reply).mapError f) acts ended ↔ _
      simp only [runs_call_iff, ih]
      constructor
      · rintro ⟨reply, rest, rfl, result, h, rfl⟩
        exact ⟨result, ⟨reply, rest, rfl, h⟩, rfl⟩
      · rintro ⟨result, ⟨reply, rest, rfl, h⟩, rfl⟩
        exact ⟨reply, rest, rfl, result, h, rfl⟩

theorem runs_mapError_error {f : ε → ε'} {e' : ε'} (h : Runs (mapError f script) acts (.error e')) :
    ∃ e, Runs script acts (.error e) ∧ e' = f e := by
  obtain ⟨result, hruns, hmapped⟩ := runs_mapError_iff.mp h
  cases result with
  | ok a => cases hmapped
  | error e =>
      cases hmapped
      exact ⟨e, hruns, rfl⟩

/-! ### The calls of a script -/

/-- Every call that the script may make meets the condition, as long as it is told what `T` says. -/
def Asks (T : (c : Call) → Reply c → Prop) (P : Call → Prop) : Script Call Reply ε α → Prop
  | .done _ => True
  | .call c next => P c ∧ ∀ reply, T c reply → (next reply).Asks T P

section Calls

variable {T : (c : Call) → Reply c → Prop} {P : Call → Prop}

theorem asks_pure {a : α} : (pure a : Script Call Reply ε α).Asks T P := trivial

theorem asks_ofExcept {ended : Except ε α} : (ofExcept ended : Script Call Reply ε α).Asks T P := trivial

theorem asks_ask {c : Call} {f : Reply c → Except ε α} (h : P c) : (ask c f).Asks T P :=
  ⟨h, fun _ _ => trivial⟩

theorem Asks.mono {Q : Call → Prop} (h : script.Asks T P) (hPQ : ∀ c, P c → Q c) : script.Asks T Q := by
  induction script with
  | done ended => exact trivial
  | call c next ih => exact ⟨hPQ c h.1, fun reply htold => ih reply (h.2 reply htold)⟩

/-- A script and what follows it, where what follows may rest on how the first one has ended. -/
theorem Asks.bind_of {f : α → Script Call Reply ε β} (h : script.Asks T P)
    (hf : ∀ acts a, Runs script acts (.ok a) → (∀ act ∈ acts, T act.1 act.2) → (f a).Asks T P) :
    (script >>= f).Asks T P := by
  change (script.bind f).Asks T P
  induction script with
  | done ended =>
      cases ended with
      | error => exact trivial
      | ok a => exact hf [] a (.done _) (List.forall_mem_nil _)
  | call c next ih =>
      refine ⟨h.1, fun reply htold => ih reply (h.2 reply htold) fun acts a hruns hacts => ?_⟩
      exact hf _ a (.call reply hruns) (List.forall_mem_cons.mpr ⟨htold, hacts⟩)

theorem Asks.bind {f : α → Script Call Reply ε β} (h : script.Asks T P) (hf : ∀ a, (f a).Asks T P) :
    (script >>= f).Asks T P :=
  h.bind_of fun _ a _ _ => hf a

/-- What follows a call rests on the reply. -/
theorem asks_ask_bind {c : Call} {g : Reply c → Except ε α} {f : α → Script Call Reply ε β} (h : P c)
    (hf : ∀ reply a, T c reply → g reply = .ok a → (f a).Asks T P) : (ask c g >>= f).Asks T P := by
  apply (asks_ask h).bind_of
  intro acts a hruns hacts
  obtain ⟨reply, rfl, hreply⟩ := runs_ask_iff.mp hruns
  exact hf reply a (hacts _ (List.mem_singleton_self _)) hreply.symm

/-- In a run that is told what `T` says, every call meets the condition. -/
theorem Asks.runs (h : script.Asks T P) (hruns : Runs script acts result)
    (htold : ∀ act ∈ acts, T act.1 act.2) : ∀ act ∈ acts, P act.1 := by
  induction hruns with
  | done => exact List.forall_mem_nil _
  | call reply _ ih =>
      obtain ⟨hfirst, hrest⟩ := List.forall_mem_cons.mp htold
      exact List.forall_mem_cons.mpr ⟨h.1, ih (h.2 reply hfirst) hrest⟩

theorem Asks.outcome (h : script.Asks T P) : (script.outcome : Script Call Reply ε' _).Asks T P := by
  induction script with
  | done => exact trivial
  | call c next ih => exact ⟨h.1, fun reply htold => ih reply (h.2 reply htold)⟩

theorem Asks.mapError {f : ε → ε'} (h : script.Asks T P) : (script.mapError f).Asks T P := by
  induction script with
  | done => exact trivial
  | call c next ih => exact ⟨h.1, fun reply htold => ih reply (h.2 reply htold)⟩

end Calls

/-! ### A machine that others use too -/

section Machines

variable {σ Outside : Type}

/-- A call of a script, the state in which it is made and the state it leaves. -/
structure Turn (σ Call : Type) (Reply : Call → Type) where
  before : σ
  act : Act Call Reply
  after : σ

/-- The script ends with the result on a machine that answers its calls, in a state that others may
have changed before each of them. -/
inductive Plays (answer : σ → Outside → (c : Call) → σ × Reply c) (between : σ → σ → Prop) :
    σ → Script Call Reply ε α → List (Turn σ Call Reply) → Except ε α → σ → Prop where
  | done (s : σ) (result : Except ε α) : Plays answer between s (.done result) [] result s
  | call {s s' last : σ} {c : Call} {next : Reply c → Script Call Reply ε α}
      {turns : List (Turn σ Call Reply)} {result : Except ε α} (hbetween : between s s')
      (outside : Outside)
      (h : Plays answer between (answer s' outside c).1 (next (answer s' outside c).2) turns result
        last) :
      Plays answer between s (.call c next)
        (⟨s', ⟨c, (answer s' outside c).2⟩, (answer s' outside c).1⟩ :: turns) result last

/-- The turns of a script that nobody comes in between, as far as it is known what its calls meet. -/
def play (answer : σ → Outside → (c : Call) → σ × Reply c) :
    List Outside → σ → Script Call Reply ε α →
      Option (List (Turn σ Call Reply) × Except ε α × σ)
  | _, s, .done result => some ([], result, s)
  | [], _, .call _ _ => none
  | outside :: later, s, .call c next =>
      let answered := answer s outside c
      (play answer later answered.1 (next answered.2)).map fun played =>
        (⟨s, ⟨c, answered.2⟩, answered.1⟩ :: played.1, played.2)

variable {answer : σ → Outside → (c : Call) → σ × Reply c} {between : σ → σ → Prop} {s last : σ}
  {turns : List (Turn σ Call Reply)}

/-- What holds of every run of a script holds of its runs on a machine. -/
theorem Plays.runs (h : Plays answer between s script turns result last) :
    Runs script (turns.map (·.act)) result := by
  induction h with
  | done s result => exact .done result
  | call hbetween outside h ih => exact .call _ ih

/-- Every turn is an answer of the machine. -/
theorem Plays.answered (h : Plays answer between s script turns result last)
    {turn : Turn σ Call Reply} (hmem : turn ∈ turns) :
    ∃ outside, turn.act.2 = (answer turn.before outside turn.act.1).2 ∧
      turn.after = (answer turn.before outside turn.act.1).1 := by
  induction h with
  | done => cases hmem
  | call hbetween outside h ih =>
      rcases List.mem_cons.mp hmem with rfl | hmem
      · exact ⟨outside, rfl, rfl⟩
      · exact ih hmem

/-- What holds of the beginning, of the calls that were answered since and of a state, before every
turn of a script and where it ends, if neither others nor an answer make it wrong. -/
theorem Plays.since {R : List (Act Call Reply) → σ → Prop}
    (hothers : ∀ {acts s s'}, R acts s → between s s' → R acts s')
    (hanswer : ∀ {acts s} outside c, R acts s →
      R (acts ++ [⟨c, (answer s outside c).2⟩]) (answer s outside c).1)
    (h : Plays answer between s script turns result last) (hstart : R [] s) :
    R (turns.map (·.act)) last ∧
      ∀ front turn later, turns = front ++ turn :: later → R (front.map (·.act)) turn.before := by
  have hall : ∀ acts, R acts s → R (acts ++ turns.map (·.act)) last ∧
      ∀ front turn later, turns = front ++ turn :: later →
        R (acts ++ front.map (·.act)) turn.before := by
    clear hstart
    induction h with
    | done s result =>
        intro acts hacts
        refine ⟨by rwa [List.map_nil, List.append_nil], ?_⟩
        intro front turn later heq
        cases front <;> cases heq
    | call hbetween outside h ih =>
        intro acts hacts
        have hbefore := hothers hacts hbetween
        obtain ⟨hlast, hturns⟩ := ih _ (hanswer outside _ hbefore)
        rw [List.append_assoc] at hlast
        refine ⟨hlast, ?_⟩
        intro front turn later heq
        cases front with
        | nil =>
            cases heq
            rwa [List.map_nil, List.append_nil]
        | cons first front =>
            cases heq
            have hturn := hturns front turn later rfl
            rwa [List.append_assoc] at hturn
  exact hall [] hstart

/-- What neither others nor the calls of a script make wrong holds before each of its turns and where
it ends, and its calls are what they may be. -/
theorem Plays.keeps {T : (c : Call) → Reply c → Prop} {P : Call → Prop} {R : σ → Prop}
    (hothers : ∀ s s', R s → between s s' → R s')
    (hanswer : ∀ s outside c, P c → R s → T c (answer s outside c).2 ∧ R (answer s outside c).1)
    (hasks : script.Asks T P) (h : Plays answer between s script turns result last) (hstart : R s) :
    R last ∧ ∀ turn ∈ turns, R turn.before ∧ P turn.act.1 := by
  induction h with
  | done => exact ⟨hstart, List.forall_mem_nil _⟩
  | call hbetween outside h ih =>
      have hbefore := hothers _ _ hstart hbetween
      obtain ⟨htold, hafter⟩ := hanswer _ outside _ hasks.1 hbefore
      obtain ⟨hlast, hturns⟩ := ih (hasks.2 _ htold) hafter
      exact ⟨hlast, List.forall_mem_cons.mpr ⟨⟨hbefore, hasks.1⟩, hturns⟩⟩

theorem plays_of_play (hrefl : ∀ s, between s s) {outsides : List Outside}
    (h : play answer outsides s script = some (turns, result, last)) :
    Plays answer between s script turns result last := by
  induction script generalizing outsides s turns with
  | done ended =>
      simp only [play, Option.some.injEq, Prod.mk.injEq] at h
      obtain ⟨rfl, rfl, rfl⟩ := h
      exact .done s ended
  | call c next ih =>
      cases outsides with
      | nil => cases h
      | cons outside later =>
          obtain ⟨⟨rest, ended, reached⟩, hplayed, heq⟩ := Option.map_eq_some_iff.mp h
          cases heq
          exact .call (hrefl s) outside (ih _ hplayed)

end Machines

/-! ### A service that is a script itself -/

section Services

variable {σ Outside Request ω κ : Type} {Answer : Request → Type}

/-- A request of a client, the turns of the service while it answered it, and what it came to. -/
structure Exchange (σ Request Call : Type) (Reply : Call → Type) (κ ω : Type) where
  request : Request
  turns : List (Turn σ Call Reply)
  ended : Except κ ω

/-- The client ends with the result after these exchanges with a service, which answers each request
with a script of its own on a machine that others use too. `deliver` is what the client is handed of
an answer. -/
inductive Converses (answer : σ → Outside → (c : Call) → σ × Reply c) (between : σ → σ → Prop)
    (service : Request → Script Call Reply κ ω) (deliver : (r : Request) → Except κ ω → Answer r) :
    σ → Script Request Answer ε α → List (Exchange σ Request Call Reply κ ω) → Except ε α → σ →
      Prop where
  | done (s : σ) (result : Except ε α) :
      Converses answer between service deliver s (.done result) [] result s
  | call {s s' last : σ} {r : Request} {next : Answer r → Script Request Answer ε α}
      {turns : List (Turn σ Call Reply)} {ended : Except κ ω}
      {exchanges : List (Exchange σ Request Call Reply κ ω)} {result : Except ε α}
      (hserved : Plays answer between s (service r) turns ended s')
      (h : Converses answer between service deliver s' (next (deliver r ended)) exchanges result
        last) :
      Converses answer between service deliver s (.call r next) (⟨r, turns, ended⟩ :: exchanges)
        result last

variable {answer : σ → Outside → (c : Call) → σ × Reply c} {between : σ → σ → Prop}
  {service : Request → Script Call Reply κ ω} {deliver : (r : Request) → Except κ ω → Answer r}
  {s last : σ} {client : Script Request Answer ε α} {result : Except ε α}
  {exchanges : List (Exchange σ Request Call Reply κ ω)}

/-- What the client saw is a run of its script. -/
theorem Converses.runs (h : Converses answer between service deliver s client exchanges result last) :
    Runs client (exchanges.map fun exchange =>
      ⟨exchange.request, deliver exchange.request exchange.ended⟩) result := by
  induction h with
  | done s result => exact .done result
  | call hserved h ih => exact .call _ ih

/-- Every exchange is a run of the service. -/
theorem Converses.served
    (h : Converses answer between service deliver s client exchanges result last)
    {exchange : Exchange σ Request Call Reply κ ω} (hmem : exchange ∈ exchanges) :
    ∃ before after, Plays answer between before (service exchange.request) exchange.turns
      exchange.ended after := by
  induction h with
  | done => cases hmem
  | call hserved h ih =>
      rcases List.mem_cons.mp hmem with rfl | hmem
      · exact ⟨_, _, hserved⟩
      · exact ih hmem

/-- The same for a client of a service, whose requests are what they may be as long as it is told
what the service says. -/
theorem Converses.keeps {T : (r : Request) → Answer r → Prop} {Q : Request → Prop}
    {T' : (c : Call) → Reply c → Prop} {P : Call → Prop} {R : σ → Prop}
    (hothers : ∀ s s', R s → between s s' → R s')
    (hanswer : ∀ s outside c, P c → R s → T' c (answer s outside c).2 ∧ R (answer s outside c).1)
    (hservice : ∀ r, Q r → (service r).Asks T' P)
    (hdeliver : ∀ s r turns ended s', Q r → R s → Plays answer between s (service r) turns ended s' →
      T r (deliver r ended))
    (hasks : client.Asks T Q)
    (h : Converses answer between service deliver s client exchanges result last) (hstart : R s) :
    ∀ exchange ∈ exchanges, ∀ turn ∈ exchange.turns, R turn.before ∧ P turn.act.1 := by
  induction h with
  | done => exact List.forall_mem_nil _
  | call hserved h ih =>
      obtain ⟨hreached, hturns⟩ := hserved.keeps hothers hanswer (hservice _ hasks.1) hstart
      have htold := hdeliver _ _ _ _ _ hasks.1 hstart hserved
      exact List.forall_mem_cons.mpr ⟨hturns, ih (hasks.2 _ htold) hreached⟩

/-- The exchanges of a client that nobody comes in between, as far as it is known what the calls of
the service meet. -/
def converse (answer : σ → Outside → (c : Call) → σ × Reply c)
    (service : Request → Script Call Reply κ ω) (deliver : (r : Request) → Except κ ω → Answer r) :
    List (List Outside) → σ → Script Request Answer ε α →
      Option (List (Exchange σ Request Call Reply κ ω) × Except ε α × σ)
  | _, s, .done result => some ([], result, s)
  | [], _, .call _ _ => none
  | outsides :: later, s, .call r next =>
      match play answer outsides s (service r) with
      | none => none
      | some (turns, ended, s') =>
          (converse answer service deliver later s' (next (deliver r ended))).map fun rest =>
            (⟨r, turns, ended⟩ :: rest.1, rest.2)

theorem converses_of_converse (hrefl : ∀ s, between s s) {outsides : List (List Outside)}
    (h : converse answer service deliver outsides s client = some (exchanges, result, last)) :
    Converses answer between service deliver s client exchanges result last := by
  induction client generalizing outsides s exchanges with
  | done ended =>
      simp only [converse, Option.some.injEq, Prod.mk.injEq] at h
      obtain ⟨rfl, rfl, rfl⟩ := h
      exact .done s ended
  | call r next ih =>
      cases outsides with
      | nil => cases h
      | cons outside later =>
          unfold converse at h
          split at h
          · cases h
          · rename_i turns ended s' hplayed
            obtain ⟨⟨rest, finished, reached⟩, hrest, heq⟩ := Option.map_eq_some_iff.mp h
            cases heq
            exact .call (plays_of_play hrefl hplayed) (ih _ hrest)

end Services

end Script
