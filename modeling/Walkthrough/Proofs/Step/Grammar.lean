import Walkthrough.Proofs.Step.Shape
/-!
# The grammar of steps

Each rule reads only what ends as its steps end, and the four endings differ in
their last character. So no text is read by two rules (`rule_unique`), the order of
the rules does not matter (`actionBy_perm`), and what a line asks for is read by the
one rule for it (`actionBy_eq_iff`). With the parts of a step this is a grammar, and
lines are classified by it (`classify_by_grammar`).
-/

namespace Walkthrough

namespace Shape

variable {text : List Char} {rule rule' : Rule} {rs : List Rule} {a : Action}

/-- What a rule reads off a line is an action of its kind. -/
theorem kind_of_read (hr : rule ∈ rules) (h : rule.read text = some a) : a.kind = rule.kind := by
  simp only [rules, List.mem_cons, List.not_mem_nil, or_false] at hr
  rcases hr with rfl | rfl | rfl | rfl <;>
    (obtain ⟨_, -, rfl⟩ := Option.map_eq_some_iff.1 h; rfl)

/-- An action that is recognized was read by one of the rules. -/
theorem exists_rule (h : actionBy rules text = a) (hne : a ≠ .unrecognized) :
    ∃ rule ∈ rules, rule.kind = a.kind ∧ rule.read text = some a := by
  unfold actionBy at h
  cases hf : rules.findSome? (·.read text) with
  | none =>
    rw [hf] at h
    exact absurd h.symm hne
  | some b =>
    rw [hf, Option.getD_some] at h
    rw [h] at hf
    obtain ⟨rule, hmem, hread⟩ := List.exists_of_findSome?_eq_some hf
    exact ⟨rule, hmem, (kind_of_read hmem hread).symm, hread⟩

/-! ## The rules apart -/

/-- How the steps of a kind end. -/
def endingOf : StepKind → List Char
  | .navigate => navigateEnding
  | .fill => fillEnding
  | .click => clickEnding
  | .assertVisible => visibleEnding
  | .unrecognized => []

/-- What a rule reads ends as its steps do. -/
theorem endingOf_suffix (hrule : rule ∈ rules) (h : (rule.read text).isSome) :
    endingOf rule.kind <:+ text := by
  have hfront {ending : List Char} (h : (before? ending text).isSome) : ending <:+ text := by
    obtain ⟨front, hfront⟩ := Option.isSome_iff_exists.1 h
    exact ⟨front, before?_eq_some_iff.1 hfront⟩
  simp only [rules, List.mem_cons, List.not_mem_nil, or_false] at hrule
  rcases hrule with rfl | rfl | rfl | rfl
  all_goals exact hfront (Option.isSome_of_isSome_bind (Option.isSome_map.symm.trans h))

/-- Steps of different kinds end in different characters. -/
theorem kind_eq_of_suffix {k l : StepKind} (hk : endingOf k <:+ text) (hl : endingOf l <:+ text)
    (hk' : k ≠ .unrecognized) (hl' : l ≠ .unrecognized) : k = l := by
  have hlast {m : StepKind} (hm : endingOf m <:+ text) (hm' : m ≠ .unrecognized) :
      text.getLast? = (endingOf m).getLast? := by
    obtain ⟨front, rfl⟩ := hm
    refine List.getLast?_append_of_ne_nil _ ?_
    cases m with
    | unrecognized => exact absurd rfl hm'
    | _ => decide
  have hsame := (hlast hk hk').symm.trans (hlast hl hl')
  revert hsame
  cases k <;> cases l <;>
    first | exact fun _ => rfl | exact absurd rfl hk' | exact absurd rfl hl' | decide

theorem kind_ne_unrecognized (hrule : rule ∈ rules) : rule.kind ≠ .unrecognized := by
  simp only [rules, List.mem_cons, List.not_mem_nil, or_false] at hrule
  rcases hrule with rfl | rfl | rfl | rfl <;> decide

/-- There is one rule for each kind of step that is recognized. -/
theorem rule_eq_of_kind (hrule : rule ∈ rules) (hrule' : rule' ∈ rules)
    (h : rule.kind = rule'.kind) : rule = rule' := by
  simp only [rules, List.mem_cons, List.not_mem_nil, or_false] at hrule hrule'
  rcases hrule with rfl | rfl | rfl | rfl <;> rcases hrule' with rfl | rfl | rfl | rfl <;>
    first | rfl | cases h

/-- **No text is read by two rules.** -/
theorem rule_unique (hrule : rule ∈ rules) (hrule' : rule' ∈ rules) (h : (rule.read text).isSome)
    (h' : (rule'.read text).isSome) : rule = rule' :=
  rule_eq_of_kind hrule hrule' (kind_eq_of_suffix (endingOf_suffix hrule h)
    (endingOf_suffix hrule' h') (kind_ne_unrecognized hrule) (kind_ne_unrecognized hrule'))

/-- So the first rule that reads a text is the only one. -/
theorem findSome?_read_iff (hrs : ∀ rule ∈ rs, rule ∈ rules) :
    rs.findSome? (·.read text) = some a ↔ ∃ rule ∈ rs, rule.read text = some a := by
  refine ⟨List.exists_of_findSome?_eq_some, fun ⟨rule, hrule, hread⟩ => ?_⟩
  have hsome : (rs.findSome? (·.read text)).isSome :=
    List.findSome?_isSome_iff.2 ⟨rule, hrule, Option.isSome_of_eq_some hread⟩
  obtain ⟨b, hb⟩ := Option.isSome_iff_exists.1 hsome
  obtain ⟨rule', hrule', hread'⟩ := List.exists_of_findSome?_eq_some hb
  obtain rfl := rule_unique (hrs rule hrule) (hrs rule' hrule') (Option.isSome_of_eq_some hread)
    (Option.isSome_of_eq_some hread')
  exact hb.trans (hread'.symm.trans hread)

/-- **The order of the rules does not matter.** -/
theorem actionBy_perm (h : rs.Perm rules) (text : List Char) :
    actionBy rs text = actionBy rules text := by
  refine congrArg (Option.getD · Action.unrecognized) (Option.ext fun a => ?_)
  rw [findSome?_read_iff fun rule => h.mem_iff.1, findSome?_read_iff fun _ => id]
  exact exists_congr fun rule => and_congr_left' h.mem_iff

/-- **What a text asks for is read by the rule for it.** -/
theorem actionBy_eq_iff (hrule : rule ∈ rules) (hkind : a.kind = rule.kind) :
    actionBy rules text = a ↔ rule.read text = some a := by
  constructor
  · intro h
    have hne : a ≠ .unrecognized := by
      rintro rfl
      exact kind_ne_unrecognized hrule hkind.symm
    obtain ⟨rule', hrule', hkind', hread⟩ := exists_rule h hne
    rwa [rule_eq_of_kind hrule' hrule (hkind'.trans hkind)] at hread
  · intro h
    unfold actionBy
    rw [(findSome?_read_iff fun _ => id).2 ⟨rule, hrule, h⟩, Option.getD_some]

end Shape

namespace Step

open Shape Text

variable {s : Step} {line target label value : String} {front ending word : List Char}

/-! ## Records and what lines ask for -/

theorem record_navigate_iff : s.classification.kind = .navigate ∧
    s.classification.target = some target ↔ s.action = .navigate target := by
  unfold classification
  cases s.action <;> simp [Action.kind, Action.target?]

theorem record_fill_iff : s.classification.kind = .fill ∧ s.classification.target = some label ∧
    s.classification.value = some value ↔ s.action = .fill label value := by
  unfold classification
  cases s.action <;> simp [Action.kind, Action.target?, Action.value?]

theorem record_click_iff : s.classification.kind = .click ∧
    s.classification.target = some target ↔ s.action = .click target := by
  unfold classification
  cases s.action <;> simp [Action.kind, Action.target?]

theorem record_assertVisible_iff : s.classification.kind = .assertVisible ∧
    s.classification.target = some target ↔ s.action = .assertVisible target := by
  unfold classification
  cases s.action <;> simp [Action.kind, Action.target?]

theorem record_of_unrecognized (h : s.classification.kind = .unrecognized) :
    s.classification.target = none ∧ s.classification.value = none := by
  unfold classification at h ⊢
  cases haction : s.action <;> simp_all [Action.kind, Action.target?, Action.value?]

theorem action_eq_navigate_iff : (classify line).action = .navigate target ↔
    path? (trim line.toList) = some target.toList := by
  refine (actionBy_eq_iff (show navigateRule ∈ rules by simp [rules]) rfl).trans ?_
  simp [navigateRule, ← String.toList_inj]

theorem action_eq_fill_iff : (classify line).action = .fill label value ↔
    labelAndValue? (trim line.toList) = some (label.toList, value.toList) := by
  refine (actionBy_eq_iff (show fillRule ∈ rules by simp [rules]) rfl).trans ?_
  simp [fillRule, ← String.toList_inj]

theorem action_eq_click_iff : (classify line).action = .click target ↔
    caption? (trim line.toList) = some target.toList := by
  refine (actionBy_eq_iff (show clickRule ∈ rules by simp [rules]) rfl).trans ?_
  simp [clickRule, ← String.toList_inj]

theorem action_eq_assertVisible_iff : (classify line).action = .assertVisible target ↔
    phrase? (trim line.toList) = some target.toList := by
  refine (actionBy_eq_iff (show visibleRule ∈ rules by simp [rules]) rfl).trans ?_
  simp [visibleRule, ← String.toList_inj]

/-- The target of a step to a page starts with a slash. -/
theorem head?_target (h : (classify line).action = .navigate target) :
    target.toList.head? = some '/' := by
  obtain ⟨-, -, -, hpath⟩ := path?_eq_some_iff.1 (action_eq_navigate_iff.1 h)
  exact hpath.slash

/-! ## Lines by their grammar -/

/-- A trimmed text begins with no blank, and so does what stands in front of something
in it. -/
theorem head?_front (h : front ++ ending = trim line.toList) :
    ∀ c ∈ front.head?, isBlank c = false := by
  have hwhole := (trim_eq_self_iff.1 (trim_trim line.toList)).1
  rw [← h] at hwhole
  exact head?_of_append hwhole

/-- **A word, a gap and an ending** are what is read in front of that ending. -/
theorem beforeGap?_before?_eq_some_iff :
    (before? ending (trim line.toList)).bind beforeGap? = some word ↔
      ∃ gap, trim line.toList = word ++ (gap ++ ending) ∧ Gap gap ∧ IsWord word := by
  rw [Option.bind_eq_some_iff]
  constructor
  · rintro ⟨front, hfront, hword⟩
    have hfront := before?_eq_some_iff.1 hfront
    obtain ⟨gap, rfl, hgap, hword⟩ := (beforeGap?_eq_some_iff (head?_front hfront)).1 hword
    exact ⟨gap, by rw [← hfront, List.append_assoc], hgap, hword⟩
  · rintro ⟨gap, htext, hgap, hword⟩
    have hfront : (word ++ gap) ++ ending = trim line.toList := by rw [htext, List.append_assoc]
    exact ⟨word ++ gap, before?_eq_some_iff.2 hfront,
      (beforeGap?_eq_some_iff (head?_front hfront)).2 ⟨gap, rfl, hgap, hword⟩⟩

/-- **The grammar of steps.** The kind of a line and what it is aimed at are told by
its trimmed text, which is kept: a path, blanks or none, and its ending, or a word, a
gap and an ending. What is not recognized has neither target nor value. No text is
read by two rules, so in whatever order these are tried every line asks for the
same. -/
theorem classify_by_grammar (line : String) :
    let text := trim line.toList
    let record := (classify line).classification
    record.raw.toList = text ∧
      (∀ target : String, record.kind = .navigate ∧ record.target = some target ↔
        ∃ gap, text = target.toList ++ (gap ++ navigateEnding) ∧ (∀ c ∈ gap, isBlank c = true) ∧
          IsPath target.toList) ∧
      (∀ target : String, record.kind = .click ∧ record.target = some target ↔
        ∃ gap, text = target.toList ++ (gap ++ clickEnding) ∧ Gap gap ∧ IsWord target.toList) ∧
      (∀ target : String, record.kind = .assertVisible ∧ record.target = some target ↔
        ∃ gap, text = target.toList ++ (gap ++ visibleEnding) ∧ Gap gap ∧ IsWord target.toList) ∧
      (record.kind = .unrecognized → record.target = none ∧ record.value = none) ∧
      (∀ cs, ∀ rule ∈ rules, ∀ rule' ∈ rules, rule.read cs ≠ none → rule'.read cs ≠ none →
        rule = rule') ∧
      ∀ rs : List Rule, rs.Perm rules → ∀ cs, actionBy rs cs = actionBy rules cs := by
  refine ⟨String.toList_ofList, fun target => ?_, fun target => ?_, fun target => ?_,
    record_of_unrecognized, fun cs rule hrule rule' hrule' h h' => ?_,
    fun rs hperm cs => actionBy_perm hperm cs⟩
  · exact record_navigate_iff.trans (action_eq_navigate_iff.trans path?_eq_some_iff)
  · exact record_click_iff.trans (action_eq_click_iff.trans beforeGap?_before?_eq_some_iff)
  · exact record_assertVisible_iff.trans
      (action_eq_assertVisible_iff.trans beforeGap?_before?_eq_some_iff)
  · exact rule_unique hrule hrule' (Option.isSome_iff_ne_none.2 h) (Option.isSome_iff_ne_none.2 h')

end Step

end Walkthrough
