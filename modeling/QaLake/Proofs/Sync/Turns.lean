import Mathlib.Logic.Basic
import QaLake.Proofs.Sync.Visit

namespace QaLake

variable {σ : Type}

/-- Whether every request is answered before another one is made. -/
def Client.AnswersAtOnce (client : Client σ) : Prop :=
  ∀ s request, client.arrived s [request] = some 0

@[simp] theorem Service.toService_client (service : Service σ) :
    service.client.toService = service :=
  rfl

theorem Service.answersAtOnce_client (service : Service σ) : service.client.AnswersAtOnce :=
  fun _ _ => rfl

namespace Fetched

@[simp] theorem requests_empty : (∅ : Fetched).requests = 0 :=
  rfl

@[simp] theorem records_empty : (∅ : Fetched).records = [] :=
  rfl

@[simp] theorem requests_append (a b : Fetched) : (a ++ b).requests = a.requests + b.requests :=
  rfl

@[simp] theorem records_append (a b : Fetched) : (a ++ b).records = a.records ++ b.records :=
  rfl

theorem append_assoc (a b c : Fetched) : a ++ b ++ c = a ++ (b ++ c) :=
  congrArg₂ Fetched.mk (Nat.add_assoc ..) (List.append_assoc ..)

theorem empty_append (a : Fetched) : ∅ ++ a = a :=
  congrArg₂ Fetched.mk (Nat.zero_add _) (List.nil_append _)

end Fetched

theorem Turn.resume?_cases (waiting : List Waiting) (i : Nat) :
    resume? waiting i = none ∧ waiting.length ≤ i ∨ ∃ before p after,
      resume? waiting i = some (.resume before p after) ∧ waiting = before ++ p :: after := by
  rw [resume?]
  cases h : waiting.drop i with
  | nil => exact .inl ⟨rfl, List.drop_eq_nil_iff.1 h⟩
  | cons p after => exact .inr ⟨_, p, after, rfl, by rw [← h, List.take_append_drop]⟩

namespace Collector

variable (c : Collector)

theorem start?_cases (inputs : List Json) (waiting : List Waiting) :
    c.start? inputs waiting = none ∧ (inputs = [] ∨ waiting ≠ []) ∨ ∃ input rest,
      c.start? inputs waiting = some (.start input rest) ∧ inputs = input :: rest ∧
        waiting.length < max c.concurrency 1 := by
  cases inputs with
  | nil => exact .inl ⟨rfl, .inl rfl⟩
  | cons input rest =>
    rw [start?]
    split
    · exact .inr ⟨input, rest, rfl, rfl, ‹_›⟩
    · refine .inl ⟨rfl, .inr fun hnil => ?_⟩
      subst hnil
      simp at *

theorem turn_cases (arrived : Option Nat) (inputs : List Json) (waiting : List Waiting) :
    (∃ input rest, c.turn arrived inputs waiting = .start input rest ∧ inputs = input :: rest ∧
      waiting.length < max c.concurrency 1) ∨
    (∃ before p after, c.turn arrived inputs waiting = .resume before p after ∧
      waiting = before ++ p :: after) ∨
    c.turn arrived inputs waiting = .stop ∧ inputs = [] ∧ waiting = [] := by
  have hfirst : arrived.bind (Turn.resume? waiting) = none ∨ ∃ before p after,
      arrived.bind (Turn.resume? waiting) = some (.resume before p after) ∧
        waiting = before ++ p :: after := by
    cases arrived with
    | none => exact .inl rfl
    | some i => exact (Turn.resume?_cases waiting i).imp_left And.left
  rw [turn]
  obtain hnone | ⟨before, p, after, hsome, hwaiting⟩ := hfirst
  · obtain ⟨hstart, hinputs⟩ | ⟨input, rest, hstart, hinputs⟩ := c.start?_cases inputs waiting
    · obtain ⟨hresume, hlength⟩ | ⟨before, p, after, hresume, hwaiting⟩ :=
        Turn.resume?_cases waiting 0
      · have hnil : waiting = [] := List.eq_nil_of_length_eq_zero (Nat.le_zero.1 hlength)
        refine .inr (.inr ⟨?_, hinputs.resolve_right fun h => h hnil, hnil⟩)
        rw [hnone, hstart, hresume]
        rfl
      · refine .inr (.inl ⟨before, p, after, ?_, hwaiting⟩)
        rw [hnone, hstart, hresume]
        rfl
    · refine .inl ⟨input, rest, ?_, hinputs⟩
      rw [hnone, hstart]
      rfl
  · refine .inr (.inl ⟨before, p, after, ?_, hwaiting⟩)
    rw [hsome]
    rfl

theorem turn_nil (arrived : Option Nat) : c.turn arrived [] [] = .stop := by
  cases arrived <;> simp [turn, Turn.resume?, start?]

theorem turn_start (arrived : Option Nat) (input : Json) (rest : List Json) :
    c.turn arrived (input :: rest) [] = .start input rest := by
  have hroom : 0 < max c.concurrency 1 := by omega
  cases arrived <;> simp [turn, Turn.resume?, start?, hroom]

theorem turn_arrived (inputs : List Json) (p : Waiting) :
    c.turn (some 0) inputs [p] = .resume [] p [] :=
  rfl

def walkAll (service : Service σ) (staged : Bool) : List Json → Action σ Fetched
  | [] => return ∅
  | input :: rest => do
    let first ← c.walkFor service staged (some input)
    return first ++ (← walkAll service staged rest)

/-- The rest of a walk that waits, if no other walk has a turn before its end. -/
def await (service : Service σ) (staged : Bool) (n : Nat) (p : Pending) : Action σ Fetched := do
  let page ← c.settle service staged p
  if c.isLast page then return ⟨1, page.records⟩
  else
    let rest ← c.walk service staged p.input p.path n (p.offset + page.records.length)
    return ⟨1, page.records⟩ ++ rest

theorem walk_succ_eq_await (service : Service σ) (staged : Bool) (input : Option Json)
    (path : String) (n offset : Nat) :
    c.walk service staged input path (n + 1) offset =
      (do c.await service staged n (← c.send service input path offset)) := by
  simp only [walk, send, await, bind_assoc, pure_bind]

/-- Whether a walk waits for an answer that the service gives to its request. -/
structure Sent (service : Service σ) (p : Pending) : Prop where
  request : p.request = ⟨p.path, c.queryAt p.offset⟩
  gives : ∀ j, p.answer = .ok j → service.Gives p.request j

/-- A request uses up one of those that may be made, or it is bound to fail. -/
theorem send_ok {service : Service σ} {input : Option Json} {path : String} {offset : Nat}
    {w v : World σ} {p : Pending} (h : (c.send service input path offset).runIn w = (.ok p, v)) :
    p.input = input ∧ p.path = path ∧ p.offset = offset ∧ c.Sent service p ∧
      v.database = w.database ∧
      (w.budget = v.budget + 1 ∨ w.budget = 0 ∧ ∃ e, p.answer = .error e) := by
  rw [send] at h
  obtain ⟨_, u, hcheck, hrest⟩ := Action.runIn_bind_ok_iff.1 h
  obtain ⟨-, rfl⟩ := Action.runIn_checkCancelled_ok.1 hcheck
  obtain ⟨db, remote, calls, budget, cancelled⟩ := u
  cases budget with
  | zero =>
    obtain ⟨hp, rfl⟩ := Prod.mk.inj hrest
    cases hp
    exact ⟨rfl, rfl, rfl, ⟨rfl, fun _ hj => nomatch hj⟩, rfl, .inr ⟨rfl, _, rfl⟩⟩
  | succ n =>
    obtain ⟨hp, rfl⟩ := Prod.mk.inj hrest
    cases hp
    exact ⟨rfl, rfl, rfl, ⟨rfl, fun _ hj => ⟨remote, hj⟩⟩, rfl, .inl rfl⟩

theorem runIn_settle_of_error {service : Service σ} {staged : Bool} {p : Pending} {e : Error}
    (h : p.answer = .error e) (w : World σ) :
    (c.settle service staged p).runIn w = (.error e, w) := by
  rw [settle, h]
  rfl

theorem budget_runIn_stage (service : Service σ) (input : Option Json) (request : Request)
    (page : Page) (w : World σ) :
    ((c.stage service input request page).runIn w).2.budget = w.budget := by
  rw [stage]
  split
  · rfl
  · rw [Action.runIn_update]
    split <;> rfl

theorem budget_runIn_settle (service : Service σ) (staged : Bool) (p : Pending) (w : World σ) :
    ((c.settle service staged p).runIn w).2.budget = w.budget := by
  rw [settle, Action.runIn_bind, Action.runIn_ofExcept]
  cases p.answer with
  | error e => rfl
  | ok answer =>
    dsimp only
    rw [Action.runIn_bind, Action.runIn_ofExcept]
    cases c.form.page answer with
    | error e => rfl
    | ok page =>
      cases staged with
      | false => rfl
      | true =>
        have hstage := c.budget_runIn_stage service p.input p.request page w
        simp only [if_true]
        rw [Action.runIn_bind]
        rcases hrun : (c.stage service p.input p.request page).runIn w with ⟨r, v⟩
        rw [hrun] at hstage
        cases r <;> exact hstage

/-- What a walk brings and what the others bring, as the turns of a fan-out put them together. -/
theorem await_bind {α : Type} (service : Service σ) (staged : Bool) (n : Nat) (p : Pending)
    (f : Fetched → Action σ α) :
    (c.await service staged n p >>= f) = (do
      let page ← c.settle service staged p
      if c.isLast page then f ⟨1, page.records⟩
      else do
        let q ← c.walk service staged p.input p.path n (p.offset + page.records.length)
        f (⟨1, page.records⟩ ++ q)) := by
  rw [await, bind_assoc]
  congr 1
  funext page
  split <;> simp

section AtOnce

variable {client : Client σ} (hclient : client.AnswersAtOnce) {staged : Bool}

theorem runIn_fanOut_nil (n : Nat) (w : World σ) :
    (c.fanOut client staged (n + 1) [] []).runIn w = (.ok ∅, w) := by
  rw [fanOut, Action.runIn_bind_of_ok (Action.runIn_world w)]
  simp only [List.map_nil, turn_nil]
  rfl

theorem runIn_fanOut_start (n : Nat) (input : Json) (rest : List Json) (w : World σ) :
    (c.fanOut client staged (n + 1) (input :: rest) []).runIn w = (do
      let path ← Action.ofExcept (c.path.render c.scope (some input))
      let p ← c.send client.toService (some input) path 0
      c.fanOut client staged n rest [⟨p, ∅⟩]).runIn w := by
  rw [fanOut, Action.runIn_bind_of_ok (Action.runIn_world w)]
  simp only [List.map_nil, turn_start, List.nil_append]

include hclient in
theorem runIn_fanOut_resume (n : Nat) (inputs : List Json) (p : Waiting) (w : World σ) :
    (c.fanOut client staged (n + 1) inputs [p]).runIn w = (do
      let page ← c.settle client.toService staged p.toPending
      let fetched := p.fetched ++ (⟨1, page.records⟩ : Fetched)
      if c.isLast page then return fetched ++ (← c.fanOut client staged n inputs [])
      else do
        let q ← c.send client.toService p.input p.path (p.offset + page.records.length)
        c.fanOut client staged n inputs [⟨q, fetched⟩]).runIn w := by
  rw [fanOut, Action.runIn_bind_of_ok (Action.runIn_world w)]
  simp only [List.map_cons, List.map_nil, hclient w.remote p.request, turn_arrived,
    List.nil_append]

/-- Whether a fan-out with so many turns makes its walks one after another. -/
def InOrder (client : Client σ) (staged : Bool) (n : Nat) : Prop :=
  ∀ inputs (w : World σ), 2 * (w.budget + inputs.length) + 1 ≤ n →
    (c.fanOut client staged n inputs []).runIn w =
      (c.walkAll client.toService staged inputs).runIn w

/-- Whether a fan-out with so many turns ends the one walk under way before it starts another. The
walk has a turn for each request that may be made, or is bound to fail. -/
def EndsFirst (client : Client σ) (staged : Bool) (n : Nat) : Prop :=
  ∀ m inputs p (w : World σ),
    (2 * (w.budget + inputs.length) + 2 ≤ n ∧ m = w.budget + 1 ∨
      0 < n ∧ ∃ e, p.answer = .error e) →
    (c.fanOut client staged n inputs [p]).runIn w = (do
      let first ← c.await client.toService staged m p.toPending
      return p.fetched ++ first ++ (← c.walkAll client.toService staged inputs)).runIn w

variable {c} {n : Nat}

theorem EndsFirst.runIn_send (h : c.EndsFirst client staged n) (inputs : List Json) (w : World σ)
    (hn : 2 * (w.budget + inputs.length) + 1 ≤ n) (input : Option Json) (path : String)
    (offset : Nat) (fetched : Fetched) :
    (do
      let q ← c.send client.toService input path offset
      c.fanOut client staged n inputs [⟨q, fetched⟩]).runIn w = (do
        let first ← c.walk client.toService staged input path (w.budget + 1) offset
        return fetched ++ first ++ (← c.walkAll client.toService staged inputs)).runIn w := by
  rw [walk_succ_eq_await, bind_assoc, Action.runIn_bind, Action.runIn_bind]
  rcases hsend : (c.send client.toService input path offset).runIn w with ⟨r, v⟩
  cases r with
  | error e => rfl
  | ok q =>
    refine h w.budget inputs ⟨q, fetched⟩ v ?_
    obtain ⟨-, -, -, -, -, hleft | ⟨-, hfails⟩⟩ := c.send_ok hsend
    · exact .inl ⟨by omega, hleft⟩
    · exact .inr ⟨by omega, hfails⟩

theorem EndsFirst.inOrder (h : c.EndsFirst client staged n) : c.InOrder client staged (n + 1) := by
  intro inputs w hn
  cases inputs with
  | nil => exact c.runIn_fanOut_nil n w
  | cons input rest =>
    rw [List.length_cons] at hn
    rw [runIn_fanOut_start, walkAll, walkFor]
    cases c.path.render c.scope (some input) with
    | error e => rfl
    | ok path =>
      have hwalk := h.runIn_send rest w (by omega) (some input) path 0 ∅
      simp only [Fetched.empty_append] at hwalk
      exact hwalk

include hclient in
theorem EndsFirst.succ (hstarts : c.InOrder client staged n) (h : c.EndsFirst client staged n) :
    c.EndsFirst client staged (n + 1) := by
  intro m inputs p w hn
  rw [c.runIn_fanOut_resume hclient, await_bind, Action.runIn_bind, Action.runIn_bind]
  rcases hsettle : (c.settle client.toService staged p.toPending).runIn w with ⟨r, v⟩
  cases r with
  | error e => rfl
  | ok page =>
    obtain ⟨hn, rfl⟩ | ⟨-, e, he⟩ := hn
    · have hbudget := c.budget_runIn_settle client.toService staged p.toPending w
      rw [hsettle] at hbudget
      change v.budget = w.budget at hbudget
      dsimp only
      cases c.isLast page with
      | true =>
        simp only [if_true]
        rw [Action.runIn_bind, Action.runIn_bind, hstarts inputs v (by omega)]
      | false =>
        have hwalk := h.runIn_send inputs v (by omega) p.input p.path
          (p.offset + page.records.length) (p.fetched ++ ⟨1, page.records⟩)
        simp only [Bool.false_eq_true, if_false, Fetched.append_assoc] at hwalk ⊢
        rw [hwalk, hbudget]
    · rw [c.runIn_settle_of_error he] at hsettle
      cases hsettle

include hclient in
theorem inOrder_and_endsFirst (n : Nat) :
    c.InOrder client staged n ∧ c.EndsFirst client staged n := by
  induction n with
  | zero => exact ⟨fun _ _ h => by omega, fun _ _ _ _ h => by omega⟩
  | succ n ih => exact ⟨ih.2.inOrder, .succ hclient ih.1 ih.2⟩

variable (c)

include hclient in
theorem gather_of_atOnce :
    c.gather client staged =
      match c.inputs with
      | none => c.walkFor client.toService staged none
      | some inputs => c.walkAll client.toService staged inputs := by
  rw [gather]
  cases c.inputs with
  | none => rfl
  | some inputs =>
    funext w
    exact (inOrder_and_endsFirst hclient _).1 inputs w (Nat.le_refl _)

end AtOnce

theorem gather_client (service : Service σ) (staged : Bool) :
    c.gather service staged =
      match c.inputs with
      | none => c.walkFor service staged none
      | some inputs => c.walkAll service staged inputs :=
  c.gather_of_atOnce service.answersAtOnce_client

end Collector

end QaLake
