import Walkthrough.Proofs.Act
import Walkthrough.Server.Session
/-!
# Calls

All that a session does with a page is done by single calls of tools. A call
sends one request, and what it comes to is read off the one answer
(`Session.single`). So a fault of a call is one of the answer, or says that
the session is not connected. Where the answer is a failure or a well-formed
result, the reading never stumbles over its shape (`ends_readResult`,
`ends_readValue`, `ends_readItems`): what goes wrong then is the fault of a tool, or
the value that is to be read is nested too deep (`Answer.TooDeep`). What else
answers can do is a misshapen value (`callFaults_any`), and all that is made of
calls has the faults that they have (`CallFaults`).
-/

namespace Walkthrough

open Walkthrough.Json

variable {α β : Type}

/-! ## Well-formed results -/

/-- The text of an item is a text, or it has none. -/
def Reply.WellFormedItem (item : Value) : Prop :=
  item.field "text" = .null ∨ ∃ s, item.field "text" = .text s

/-- A result whose contents are a list of items that hold texts as texts. -/
def Reply.WellFormed (result : Value) : Prop :=
  ∃ items, result.field "content" = .list items ∧ ∀ i ∈ items, Reply.WellFormedItem i

/-- A tool that is called fails, or gives a well-formed result. -/
def Proper (e : Exchange) : Prop :=
  ∀ tool args result, e.1 = .call tool args → e.2.outcome = .ok result → Reply.WellFormed result

/-- **The text from which the value of a result is read:** that of its first text
item, where it has no structured value and no JSON item. -/
def Reply.Relies (result : Value) (text : String) : Prop :=
  (result.field "structuredContent").isNull = true ∧
    ∃ its, Reply.items (result.field "content") = .ok its ∧ Reply.json? its = none ∧
      Reply.text? its = some (.text text)

/-- **An answer that is nested too deep:** a result, and no error, whose value is to
be read from a text for which there is not room enough. -/
def Answer.TooDeep (a : Answer) : Prop :=
  ∃ result text nest, a.outcome = .ok result ∧ (result.field "isError").truthy = false ∧
    Reply.Relies result text ∧
    Value.parse (some a.room) (Reply.said text) = .error (.tooDeep nest)

/-! ## Calls about the page script -/

/-- The call that carries out statements in the page. -/
def statementCall (code : String) : Request :=
  .call Session.evaluateTool [("function", .text (Page.statementFunction code))]

/-- The call that installs the page script. -/
def installation : Request := statementCall Page.script

/-- The call of a resolver of the page script. -/
def resolverCall (r : Page.Resolver) (args : List Value) : Request :=
  .call Session.evaluateTool [("function", .text (Page.expressionFunction (Page.call r args)))]

/-- A resolver was called on which a step hangs. -/
def Resolves (e : Exchange) : Prop := ∃ r args, r ≠ .clickTier ∧ e.1 = resolverCall r args

/-- **The answer of a resolver that is nested too deep** to be read. -/
def Overflows (e : Exchange) : Prop := Resolves e ∧ e.2.TooDeep

/-- A tool that is called fails, or gives a well-formed result that can be read where
a step hangs on it. -/
def Sound (e : Exchange) : Prop := Proper e ∧ ¬Overflows e

namespace Reply

theorem items_list (vs : List Value) : items (.list vs) = .ok vs := by
  cases vs with
  | nil => rfl
  | cons v vs => rfl

theorem exists_errorTexts {its : List Value} (h : ∀ i ∈ its, WellFormedItem i) :
    ∃ texts, errorTexts its = .ok texts := by
  induction its with
  | nil => exact ⟨[], rfl⟩
  | cons i rest ih =>
    obtain ⟨texts, ht⟩ := ih fun j hj => h j (List.mem_cons_of_mem _ hj)
    rw [errorTexts, ht]
    rcases h i List.mem_cons_self with hi | ⟨s, hi⟩
    · rw [hi]
      exact ⟨texts, by simp [Value.truthy]⟩
    · rw [hi]
      split
      · exact ⟨s :: texts, rfl⟩
      · exact ⟨texts, rfl⟩

/-- What an error says can be read off a well-formed result. -/
theorem exists_errorText {result : Value} (h : WellFormed result) :
    ∃ text, errorText (result.field "content") = .ok text := by
  obtain ⟨its, hc, hits⟩ := h
  obtain ⟨texts, ht⟩ := exists_errorTexts hits
  simp only [errorText, hc, items_list, bind, Except.bind, ht]
  cases texts with
  | nil => exact ⟨_, rfl⟩
  | cons t ts => exact ⟨_, rfl⟩

/-- The text item whose text is read has a text. -/
theorem text?_eq_some {its : List Value} {v : Value} (hits : ∀ i ∈ its, WellFormedItem i)
    (h : text? its = some v) : ∃ s, v = .text s := by
  unfold text? at h
  obtain ⟨i, hi, rfl⟩ := Option.map_eq_some_iff.1 h
  have hnull := List.find?_some hi
  rcases hits i (List.mem_of_find?_eq_some hi) with ht | ht
  · simp [ht, Value.isNull] at hnull
  · exact ht

/-- A text is read, unless it is nested too deep. -/
theorem readText_cases (room : Nat) (text : String) :
    (∃ v, readText room text = .ok v) ∨ ∃ nest,
      Value.parse (some room) (said text) = .error (.tooDeep nest) ∧
        readText room text = .error (.tooDeep nest) := by
  unfold readText load
  cases hparse : Value.parse (some room) (said text) with
  | ok v => exact .inl ⟨v, rfl⟩
  | error e =>
    cases e with
    | noValue => exact .inl ⟨_, rfl⟩
    | tooDeep nest => exact .inr ⟨nest, rfl, rfl⟩

/-- And so can its value, unless it is nested too deep. -/
theorem value_cases {result : Value} (h : WellFormed result) (room : Nat) :
    (∃ v, value room (result.field "content") (result.field "structuredContent") = .ok v) ∨
      ∃ text nest, Relies result text ∧
        Value.parse (some room) (said text) = .error (.tooDeep nest) ∧
        value room (result.field "content") (result.field "structuredContent") =
          .error (.tooDeep nest) := by
  obtain ⟨its, hc, hits⟩ := h
  have hitems : items (result.field "content") = .ok its := by rw [hc, items_list]
  unfold value
  rw [hitems]
  split
  · next hnull =>
    show (∃ v, valueOfItems room its = .ok v) ∨
      ∃ text nest, _ ∧ _ ∧ valueOfItems room its = .error (.tooDeep nest)
    unfold valueOfItems
    split
    · exact .inl ⟨_, rfl⟩
    · next hjson =>
      split
      · next s htext =>
        rcases readText_cases room s with hread | ⟨nest, hparse, hread⟩
        · exact .inl hread
        · exact .inr ⟨s, nest, ⟨hnull, its, hitems, hjson, htext⟩, hparse, hread⟩
      · next v hv htext =>
        -- the item that was found has a text, and it is no text
        obtain ⟨s, rfl⟩ := text?_eq_some hits htext
        exact absurd rfl (hv s)
      · exact .inl ⟨_, rfl⟩
  · exact .inl ⟨_, rfl⟩

end Reply

namespace Session

/-! ## Calls and how they are read -/

/-- **One call of a tool,** and what its answer is read as. -/
def single (tool : String) (args : Arguments) (read : Answer → Except Fault α) : Act α := fun w =>
  if w.connection.connected then
    .ask (w.record (.called tool args)) (.call tool args) fun a =>
      .done (read a,
        { w.record (.called tool args) with clock := w.clock + a.elapsed })
  else .done (.error (.tool tool "session is not connected"), w)

/-- The result that an answer gives. -/
def readResult (tool : String) : Except ServerFault Value → Except Fault Value
  | .error e => .error (asToolFault tool (.ofServer e))
  | .ok result =>
    if (result.field "isError").truthy then
      match Reply.errorText (result.field "content") with
      | .ok text => .error (.tool tool text)
      | .error m => .error (.misshapen m)
    else .ok result

/-- The items that an answer gives. -/
def readItems (tool : String) (answer : Except ServerFault Value) : Except Fault (List Value) := do
  let result ← readResult tool answer
  (Reply.items (result.field "content")).mapError .misshapen

/-- The value that an answer gives. -/
def readValue (answer : Answer) : Except Fault Value := do
  let result ← readResult evaluateTool answer.outcome
  let _ ← (Reply.items (result.field "content")).mapError .misshapen
  (Reply.value answer.room (result.field "content") (result.field "structuredContent")).mapError
    .misshapen

/-- What is read off a call can be read further. -/
theorem single_bind {tool : String} {args : Arguments}
    {read : Answer → Except Fault α} {f : α → Act β}
    {g : α → Except Fault β} (h : ∀ a w, f a w = .done (g a, w)) :
    single tool args read >>= f = single tool args fun answer => read answer >>= g := by
  funext w
  show (single tool args read w).andThen (Act.proceed f) = _
  unfold single
  split
  · simp only [Dialogue.andThen]
    congr
    funext a
    cases read a with
    | ok v => exact h v _
    | error e => rfl
  · rfl

theorem callTool_eq (tool : String) (args : Arguments) : callTool tool args =
    single tool args fun a => (a.outcome.map (·, a.room)).mapError .ofServer := by
  funext w
  show (if w.connection.connected then (_ : Act (Value × Nat)) else _) w = _
  unfold single
  split
  · show Dialogue.ask _ _ _ = Dialogue.ask _ _ _
    congr
    funext a
    show Act.ofExcept Fault.ofServer (a.outcome.map (·, a.room)) _ =
      .done ((a.outcome.map (·, a.room)).mapError .ofServer, _)
    cases a.outcome <;> rfl
  · rfl

theorem resultOf_eq (tool : String) (args : Arguments) : resultOf tool args =
    single tool args fun a => (readResult tool a.outcome).map (·, a.room) := by
  unfold resultOf
  rw [callTool_eq]
  funext w
  show ((single tool args _ w).andThen _).andThen _ = _
  unfold single
  split
  · simp only [Dialogue.andThen]
    congr
    funext a
    cases a.outcome with
    | error e => rfl
    | ok result =>
      have hok : ((Except.ok result : Except ServerFault Value).map (·, a.room)).mapError
        Fault.ofServer = .ok (result, a.room) := rfl
      simp only [hok, Act.proceed, readResult]
      split
      · cases Reply.errorText (result.field "content") <;> rfl
      · rfl
  · rfl

theorem invoke_eq (tool : String) (args : Arguments) :
    invoke tool args = single tool args fun a => readItems tool a.outcome := by
  have hread (a : Answer) : readItems tool a.outcome =
      (readResult tool a.outcome).map (·, a.room) >>= fun r =>
        (Reply.items (r.1.field "content")).mapError .misshapen := by
    unfold readItems
    cases readResult tool a.outcome <;> rfl
  unfold invoke
  rw [resultOf_eq, funext hread]
  refine single_bind fun (result, room) w => ?_
  show Act.ofExcept Fault.misshapen (Reply.items (result.field "content")) w = _
  cases h : Reply.items (result.field "content") <;> rfl

theorem evaluate_eq (expression : String) :
    evaluate expression =
      single evaluateTool [("function", .text (Page.expressionFunction expression))] readValue := by
  have hread (a : Answer) : readValue a =
      (readResult evaluateTool a.outcome).map (·, a.room) >>= fun r =>
        (Reply.items (r.1.field "content")).mapError Fault.misshapen >>= fun _ =>
          (Reply.value r.2 (r.1.field "content") (r.1.field "structuredContent")).mapError
            .misshapen := by
    unfold readValue
    cases readResult evaluateTool a.outcome <;> rfl
  unfold evaluate
  rw [resultOf_eq, funext hread]
  refine single_bind fun (result, room) w => ?_
  show (Act.ofExcept Fault.misshapen (Reply.items (result.field "content")) >>= fun _ =>
    Act.ofExcept Fault.misshapen
      (Reply.value room (result.field "content") (result.field "structuredContent"))) w = _
  -- the items are looked at before the value is, and their fault comes first
  cases h : Reply.items (result.field "content") with
  | error m => rfl
  | ok its =>
    cases h : Reply.value room (result.field "content") (result.field "structuredContent") <;> rfl

/-! ## What a call can come to -/

/-- **All that a call can do.** One request is sent and its answer read, and
time goes by; nothing is asked where nothing is connected. -/
theorem way_single {tool : String} {args : Arguments}
    {read : Answer → Except Fault α} {w w' : World} {es : List Exchange}
    {r : Except Fault α} (h : (single tool args read).Way w es r w') :
    (w.connection.connected = true ∧ ∃ a, es = [(.call tool args, a)] ∧ r = read a ∧
        w' = { w.record (.called tool args) with clock := w.clock + a.elapsed }) ∨
      (w.connection.connected = false ∧ es = [] ∧
        r = .error (.tool tool "session is not connected") ∧ w' = w) := by
  unfold Act.Way single at h
  split at h
  case isTrue hc =>
    obtain ⟨a, fs, rfl, hd⟩ := Dialogue.way_ask_iff.1 h
    obtain ⟨rfl, hd⟩ := Dialogue.way_done_iff.1 hd
    cases hd
    exact .inl ⟨hc, a, rfl, rfl, rfl⟩
  case isFalse hc =>
    obtain ⟨rfl, h⟩ := Dialogue.way_done_iff.1 h
    cases h
    exact .inr ⟨by simpa using hc, rfl, rfl, rfl⟩

/-- Where something is connected a call is answered. -/
theorem way_single_of_connected {tool : String} {args : Arguments}
    {read : Answer → Except Fault α} {w w' : World} {es : List Exchange}
    {r : Except Fault α} (h : (single tool args read).Way w es r w')
    (hc : w.connection.connected = true) :
    ∃ a, es = [(.call tool args, a)] ∧ r = read a ∧
      w' = { w.record (.called tool args) with clock := w.clock + a.elapsed } := by
  rcases way_single h with ⟨-, hcall⟩ | ⟨hc', -⟩
  · exact hcall
  · rw [hc] at hc'
    cases hc'

/-- A call comes to what its answer is read as, or fails for the tool. -/
theorem gives_single {A : Exchange → Prop} {P : α → Prop} {F : Fault → Prop} {tool : String}
    {args : Arguments} {read : Answer → Except Fault α}
    (hF : ∀ m, F (.tool tool m)) (h : ∀ a, A (.call tool args, a) → Ends P F (read a)) :
    Act.Gives A (single tool args read) P F := by
  intro w es r w' hx hA
  rcases way_single hx with ⟨-, a, rfl, rfl, -⟩ | ⟨-, -, rfl, -⟩
  · exact h a (hA _ List.mem_cons_self)
  · exact hF _

/-- The fault of a tool. -/
def IsTool : Fault → Prop
  | .tool _ _ => True
  | _ => False

theorem isTool_asToolFault (tool : String) (e : Fault) : IsTool (asToolFault tool e) := by
  cases e <;> trivial

variable {tool : String} {args : Arguments} {a : Answer}

theorem ends_readResult (h : Proper (.call tool args, a)) :
    Ends Reply.WellFormed IsTool (readResult tool a.outcome) := by
  cases ha : a.outcome with
  | error e => exact isTool_asToolFault tool _
  | ok result =>
    have hw : Reply.WellFormed result := h tool args result rfl ha
    unfold readResult
    split
    · next e he => cases he
    · next v hv =>
      cases hv
      split
      · obtain ⟨text, ht⟩ := Reply.exists_errorText hw
        rw [ht]
        trivial
      · exact hw

/-- **The items of a well-formed result can be read.** -/
theorem ends_readItems (h : Proper (.call tool args, a)) :
    Ends (fun _ => True) IsTool (readItems tool a.outcome) := by
  have hr := ends_readResult h
  unfold readItems
  cases hres : readResult tool a.outcome with
  | error e =>
    rw [hres] at hr
    exact hr
  | ok result =>
    rw [hres] at hr
    obtain ⟨its, hc, -⟩ := hr
    show Ends _ _ ((Reply.items (result.field "content")).mapError .misshapen)
    rw [hc, Reply.items_list]
    trivial

/-- A result that is read is no error. -/
theorem readResult_eq_ok_iff {answer : Except ServerFault Value} {result : Value} :
    readResult tool answer = .ok result ↔
      answer = .ok result ∧ (result.field "isError").truthy = false := by
  cases answer with
  | error e => exact ⟨nofun, nofun⟩
  | ok v =>
    rw [Except.ok.injEq]
    cases hflag : (v.field "isError").truthy with
    | false =>
      have hread : readResult tool (.ok v) = .ok v := by simp [readResult, hflag]
      rw [hread, Except.ok.injEq]
      exact ⟨fun h => ⟨h, h ▸ hflag⟩, fun h => h.1⟩
    | true =>
      constructor
      · intro h
        unfold readResult at h
        dsimp only at h
        rw [if_pos hflag] at h
        split at h <;> cases h
      · rintro ⟨rfl, h⟩
        rw [hflag] at h
        cases h

/-- How the value of an answer is read off its result. -/
theorem readValue_of_result {result : Value} (h : readResult evaluateTool a.outcome = .ok result) :
    readValue a = (Reply.items (result.field "content")).mapError Fault.misshapen >>= fun _ =>
      (Reply.value a.room (result.field "content") (result.field "structuredContent")).mapError
        .misshapen := by
  unfold readValue
  rw [h]
  rfl

/-- **So can its value,** unless it is nested too deep. -/
theorem readValue_cases {result : Value} (h : Proper (.call evaluateTool args, a))
    (hres : readResult evaluateTool a.outcome = .ok result) :
    (∃ v, readValue a = .ok v) ∨
      a.TooDeep ∧ ∃ nest, readValue a = .error (.misshapen (.tooDeep nest)) := by
  obtain ⟨houtcome, hflag⟩ := readResult_eq_ok_iff.1 hres
  have hw : Reply.WellFormed result := h evaluateTool args result rfl houtcome
  obtain ⟨its, hc, -⟩ := id hw
  rw [readValue_of_result hres, hc, Reply.items_list, ← hc]
  rcases Reply.value_cases hw a.room with ⟨v, hv⟩ | ⟨text, nest, hrelies, hparse, hv⟩
  · rw [hv]
    exact .inl ⟨v, rfl⟩
  · rw [hv]
    exact .inr ⟨⟨result, text, nest, houtcome, hflag, hrelies, hparse⟩, nest, rfl⟩

theorem ends_readValue (h : Proper (.call evaluateTool args, a)) (hroom : ¬a.TooDeep) :
    Ends (fun _ => True) IsTool (readValue a) := by
  have hr := ends_readResult h
  cases hres : readResult evaluateTool a.outcome with
  | error e =>
    unfold readValue
    rw [hres] at hr ⊢
    exact hr
  | ok result =>
    rcases readValue_cases h hres with ⟨v, hv⟩ | ⟨hdeep, -⟩
    · rw [hv]
      trivial
    · exact absurd hdeep hroom

/-- **The faults of calls are of a kind,** as long as the exchanges are: those of
tools, and those with which answers are read. -/
structure CallFaults (A : Exchange → Prop) (F : Fault → Prop) : Prop where
  tool (t m : String) : F (.tool t m)
  items {tool : String} {args : Arguments} {a : Answer} (h : A (.call tool args, a)) :
    Ends (fun _ => True) F (readItems tool a.outcome)
  value {r : Page.Resolver} {args : List Value} {a : Answer} (hr : r ≠ .clickTier)
    (h : A (resolverCall r args, a)) : Ends (fun _ => True) F (readValue a)

/-- The fault of a tool, or of what a tool gave. -/
def IsReply : Fault → Prop
  | .tool _ _ | .misshapen _ => True
  | _ => False

theorem ends_readResult_any (answer : Except ServerFault Value) :
    Ends (fun _ => True) IsReply (readResult tool answer) := by
  unfold readResult
  split
  · next e =>
    have htool := isTool_asToolFault tool (.ofServer e)
    show IsReply (asToolFault tool (.ofServer e))
    cases h : asToolFault tool (.ofServer e) with
    | tool t m => trivial
    | _ =>
      rw [h] at htool
      exact htool.elim
  · split
    · split
      · trivial
      · trivial
    · trivial

/-- Under any answers there is the shape of an answer besides. -/
theorem callFaults_any : CallFaults (fun _ => True) IsReply where
  tool _ _ := trivial
  items _ := (ends_readResult_any _).bind fun _ _ => ends_mapError fun _ => trivial
  value _ _ := (ends_readResult_any _).bind fun _ _ =>
    (ends_mapError fun _ => trivial).bind fun _ _ => ends_mapError fun _ => trivial

namespace CallFaults

variable {A : Exchange → Prop} {F : Fault → Prop} (h : CallFaults A F)
include h

theorem invoke : Act.Gives A (Session.invoke tool args) (fun _ => True) F := by
  rw [invoke_eq]
  exact gives_single (h.tool _) fun _ => h.items

theorem evaluate {r : Page.Resolver} (hr : r ≠ .clickTier) {args : List Value} :
    Act.Gives A (Session.evaluate (Page.call r args)) (fun _ => True) F := by
  rw [evaluate_eq]
  exact gives_single (h.tool _) fun _ => h.value hr

theorem ensureScript : Act.Gives A Session.ensureScript (fun _ => True) F := by
  unfold Session.ensureScript
  refine (Act.gives_read (P := fun _ => True) fun _ => trivial).bind fun c _ => ?_
  split
  · exact Act.gives_pure trivial
  · unfold evaluateStatement
    refine Act.Gives.bind (P := fun _ => True) ?_ fun _ _ => Act.gives_change trivial
    exact h.invoke.bind fun _ _ => Act.gives_pure trivial

end CallFaults

end Session

end Walkthrough
