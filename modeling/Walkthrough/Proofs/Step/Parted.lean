import Walkthrough.Proofs.Step.Grammar
import Walkthrough.Proofs.Text.Line
import Walkthrough.Proofs.Suite.Reader
/-!
# Label and value

A typing step is parted at its last separator, a particle with a blank on both sides
(`typing_parted`): so what is read as its value holds none, and a label and a value
that are written down with single blanks between them are read back, unless there is
a separator in the value.

Of a line that leaves the value out, nothing is read where two blanks stand in its
place or fewer, and the empty text where three do or more. These are the only lines of
a document that are classified without all that their kind asks for
(`complete_iff`).
-/

namespace Walkthrough

namespace Shape

open Text

variable {text label value front back mid rest g g' : List Char}

/-- A separator: a particle with a blank on both sides. -/
def HasSeparator (cs : List Char) : Prop :=
  ∃ x y, isBlank x = true ∧ isBlank y = true ∧ [x, particle, y] <:+: cs

/-- **A text parted at its last separator:** a label, a value and the ending, with gaps
between them and around the particle, and no separator further back. -/
structure Parted (text label value : List Char) : Prop where
  whole : ∃ g g' g'', text = label ++ (g ++ particle :: (g' ++ (value ++ (g'' ++ fillEnding)))) ∧
    Gap g ∧ Gap g' ∧ Gap g''
  word : IsWord label
  trimmed : trim value = value
  last : ¬HasSeparator (' ' :: value)

/-- **A text that leaves the value out:** blanks stand in its place, three or more. -/
def Valueless (text : List Char) : Prop :=
  ∃ label g gap, text = label ++ (g ++ particle :: (gap ++ fillEnding)) ∧ IsWord label ∧ Gap g ∧
    Gap gap ∧ 3 ≤ gap.length

theorem parted?_eq_some_iff : parted? (front, back) = some (label, value) ↔
    beforeGap? front = some label ∧ betweenGaps? back = some value := by
  simp [parted?, Option.bind_eq_some_iff]

/-- **The last particle that fits parts** label and value. -/
theorem labelAndValue?_eq_some_iff : labelAndValue? text = some (label, value) ↔
    ∃ front back, text = front ++ particle :: (back ++ fillEnding) ∧
      beforeGap? front = some label ∧ betweenGaps? back = some value ∧
      ∀ mid rest, back = mid ++ particle :: rest → parted? (front ++ particle :: mid, rest) = none := by
  unfold labelAndValue?
  simp only [bind, Option.bind_eq_some_iff, before?_eq_some_iff, findSome?_cuts_eq_some_iff,
    parted?_eq_some_iff, and_assoc]
  constructor
  · rintro ⟨_, rfl, front, back, rfl, h⟩
    exact ⟨front, back, by simp, h⟩
  · rintro ⟨front, back, rfl, h⟩
    exact ⟨_, by simp, front, back, rfl, h⟩

/-! ## What is read holds no separator -/

/-- **A separator in a value is a cut further back:** in front of its particle stand a
gap and maybe a part of the value, and behind it the rest. -/
theorem exists_cut_of_hasSeparator (hg : Gap g) (h : HasSeparator (' ' :: value)) :
    ∃ mid rest, g ++ value = mid ++ particle :: rest ∧ endsBlank mid = true ∧
      startsBlank rest = true ∧ rest <:+ value := by
  obtain ⟨x, y, hx, hy, front, back, hvalue⟩ := h
  have hback : startsBlank (y :: back) = true := hy
  cases front with
  | nil =>
    obtain ⟨-, rfl⟩ : ' ' = x ∧ value = particle :: y :: back := by simpa using hvalue.symm
    exact ⟨g, y :: back, rfl, endsBlank_gap hg [], hback, List.suffix_cons ..⟩
  | cons d front =>
    obtain ⟨-, rfl⟩ : ' ' = d ∧ value = front ++ x :: particle :: y :: back := by
      simpa using hvalue.symm
    refine ⟨g ++ (front ++ [x]), y :: back, by simp, ?_, hback, ⟨front ++ [x, particle], by simp⟩⟩
    exact endsBlank_iff.2 ⟨g ++ front, x, by simp, hx⟩

/-- Something trimmed has more than blanks behind each blank in it. -/
theorem exists_solid_of_suffix (htrim : trim value = value) (hsuffix : rest <:+ value)
    (hne : rest ≠ []) : ∃ c ∈ rest, isBlank c = false := by
  obtain ⟨mid, c, rfl⟩ := List.eq_nil_or_concat' rest |>.resolve_left hne
  obtain ⟨front, rfl⟩ := hsuffix
  refine ⟨c, by simp, (trim_eq_self_iff.1 htrim).2 c ?_⟩
  rw [← List.append_assoc]
  exact List.getLast?_concat

/-- **Such a cut fits,** if no line feed is in the way. -/
theorem parted?_ne_none (hmid : endsBlank mid = true) (hrest : startsBlank rest = true)
    (hsuffix : rest <:+ value) (htrim : trim value = value) (hgap : Gap g)
    (hfront : '\n' ∉ front ++ particle :: mid) (hback : '\n' ∉ rest ++ g) :
    parted? (front ++ particle :: mid, rest ++ g) ≠ none := by
  obtain ⟨m, x, rfl, hx⟩ := endsBlank_iff.1 hmid
  obtain ⟨y, r, rfl, hy⟩ := startsBlank_iff.1 hrest
  obtain ⟨c, hmem, hc⟩ := exists_solid_of_suffix htrim hsuffix (List.cons_ne_nil _ _)
  have hends : endsBlank (front ++ particle :: (m ++ [x])) = true :=
    endsBlank_iff.2 ⟨front ++ particle :: m, x, by simp, hx⟩
  have hlabel := isSome_beforeGap? hends (c := particle) (by simp) (by decide) hfront
  have hvalue : (betweenGaps? ((y :: r) ++ g)).isSome :=
    isSome_betweenGaps? hy (endsBlank_gap hgap _) (List.mem_append_left _ hmem) hc hback
  obtain ⟨l, hl⟩ := Option.isSome_iff_exists.1 hlabel
  obtain ⟨v, hv⟩ := Option.isSome_iff_exists.1 hvalue
  rw [parted?_eq_some_iff.2 ⟨hl, hv⟩]
  exact Option.some_ne_none _

/-- **What is read is parted at the last separator.** -/
theorem parted_of_labelAndValue? (hstart : ∀ c ∈ text.head?, isBlank c = false)
    (hfeed : '\n' ∉ text) (h : labelAndValue? text = some (label, value)) :
    Parted text label value := by
  obtain ⟨front, back, rfl, hlabel, hvalue, hlater⟩ := labelAndValue?_eq_some_iff.1 h
  obtain ⟨g, rfl, hg, hword⟩ := (beforeGap?_eq_some_iff (head?_of_append hstart)).1 hlabel
  obtain ⟨g', g'', rfl, hg', hg'', htrim⟩ := gaps_of_betweenGaps? hvalue
  refine ⟨⟨g, g', g'', by simp, hg, hg', hg''⟩, hword, htrim, fun hseparator => ?_⟩
  obtain ⟨mid, rest, hcut, hmid, hrest, hsuffix⟩ := exists_cut_of_hasSeparator hg' hseparator
  have hback : g' ++ (value ++ g'') = mid ++ particle :: (rest ++ g'') := by
    rw [← List.append_assoc, hcut, List.append_assoc, List.cons_append]
  have hunfed : '\n' ∉ (label ++ g) ++ particle :: mid ∧ '\n' ∉ rest ++ g'' := by
    rw [hback] at hfeed
    simp only [List.mem_append, List.mem_cons, not_or] at hfeed ⊢
    tauto
  -- that cut would have come first
  exact parted?_ne_none hmid hrest hsuffix htrim hg'' hunfed.1 hunfed.2 (hlater _ _ hback)

/-! ## What is written is read back -/

/-- Where single blanks stand around a value, a cut inside of them that fits shows a
separator. -/
theorem hasSeparator_of_parted? {cut : List Char × List Char}
    (hback : ' ' :: (value ++ [' ']) = mid ++ particle :: rest)
    (h : parted? (front ++ particle :: mid, rest) = some cut) : HasSeparator (' ' :: value) := by
  obtain ⟨hlabel, hvalue⟩ := parted?_eq_some_iff.1 (show _ = some (cut.1, cut.2) from h)
  obtain ⟨g, g', rfl, hg, hg', -⟩ := gaps_of_betweenGaps? hvalue
  obtain ⟨m, x, hmid, hx⟩ := endsBlank_iff.1 (endsBlank_of_beforeGap? hlabel)
  obtain ⟨y, g, rfl⟩ := List.exists_cons_of_ne_nil hg.1
  obtain ⟨b, z, rfl⟩ := List.eq_nil_or_concat' g' |>.resolve_left hg'.1
  -- the last of the blanks is the one behind the value
  have hvalue : ' ' :: value = mid ++ particle :: y :: (g ++ (cut.2 ++ b)) := by
    have hends : ' ' :: value ++ [' '] = mid ++ particle :: y :: (g ++ (cut.2 ++ b)) ++ [z] := by
      simpa using hback
    exact (List.append_inj' hends rfl).1
  rcases List.eq_nil_or_concat' mid with rfl | ⟨m', x', rfl⟩
  · -- a particle is no blank
    obtain ⟨-, rfl⟩ : front = m ∧ particle = x := by simpa using hmid
    cases hx
  · have hends : front ++ particle :: m' ++ [x'] = m ++ [x] := by simpa using hmid
    obtain ⟨-, rfl⟩ : front ++ particle :: m' = m ∧ x' = x := by
      simpa using List.append_inj' hends rfl
    exact ⟨x', y, hx, hg.2 y List.mem_cons_self, m', g ++ (cut.2 ++ b), by rw [hvalue]; simp⟩

/-- **A label and a value are read back** where there is no separator in the value. -/
theorem labelAndValue?_written (hlabel : IsWord label) (hvalue : IsWord value)
    (hseparator : ¬HasSeparator (' ' :: value)) :
    labelAndValue? (label ++ ' ' :: particle :: ' ' :: (value ++ ' ' :: fillEnding)) =
      some (label, value) := by
  have hblank : Gap [' '] := by decide
  refine labelAndValue?_eq_some_iff.2 ⟨label ++ [' '], ' ' :: (value ++ [' ']), by simp,
    (beforeGap?_eq_some_iff (hlabel.head?_append _)).2 ⟨_, rfl, hblank, hlabel⟩,
    betweenGaps?_of_gaps hblank hblank hvalue, fun mid rest hback => ?_⟩
  cases hcut : parted? (label ++ [' '] ++ particle :: mid, rest) with
  | none => rfl
  | some cut => exact absurd (hasSeparator_of_parted? hback hcut) hseparator

/-! ## Lines without a value -/

/-- **The empty text is read** where the value is left out. -/
theorem labelAndValue?_eq_nil_iff (hstart : ∀ c ∈ text.head?, isBlank c = false)
    (hfeed : '\n' ∉ text) : (∃ label, labelAndValue? text = some (label, [])) ↔ Valueless text := by
  constructor
  · rintro ⟨label, h⟩
    obtain ⟨front, back, rfl, hlabel, hnone, -⟩ := labelAndValue?_eq_some_iff.1 h
    obtain ⟨g, rfl, hg, hword⟩ := (beforeGap?_eq_some_iff (head?_of_append hstart)).1 hlabel
    obtain ⟨hblank, c, hc, -⟩ := betweenGaps?_eq_nil_iff.1 hnone
    have hlength := List.length_pos_of_mem hc
    rw [List.length_dropLast, List.length_tail] at hlength
    refine ⟨label, g, back, by simp, hword, hg, ⟨?_, hblank⟩, by omega⟩
    rintro rfl
    cases hc
  · rintro ⟨label, g, gap, rfl, hlabel, hg, hgap, hlength⟩
    have hinner : gap.tail.dropLast ≠ [] := by
      rw [ne_eq, ← List.length_eq_zero_iff, List.length_dropLast, List.length_tail]
      omega
    obtain ⟨c, hmem⟩ := List.exists_mem_of_ne_nil _ hinner
    have hc : c ≠ '\n' := by
      rintro rfl
      have hgapmem := List.mem_of_mem_tail (List.dropLast_subset _ hmem)
      exact hfeed (by simp [hgapmem])
    refine ⟨label, labelAndValue?_eq_some_iff.2 ⟨label ++ g, gap, by simp,
      (beforeGap?_eq_some_iff (hlabel.head?_append g)).2 ⟨g, rfl, hg, hlabel⟩,
      betweenGaps?_eq_nil_iff.2 ⟨hgap.2, c, hmem, hc⟩, fun mid rest hback => ?_⟩⟩
    -- a gap holds no particle
    have hparticle := hgap.2 particle (by simp [hback])
    cases hparticle

/-- Two blanks leave no value out. -/
theorem not_valueless_written :
    ¬Valueless (label ++ ' ' :: particle :: ' ' :: ' ' :: fillEnding) := by
  rintro ⟨label', g, gap, htext, -, -, hgap, hlength⟩
  have hfront : label ++ [' '] ++ [particle, ' ', ' '] = (label' ++ g ++ [particle]) ++ gap :=
    List.append_cancel_right (show _ ++ fillEnding = _ ++ fillEnding by simpa using htext)
  have hsuffix : [particle, ' ', ' '] <:+ gap :=
    List.suffix_of_suffix_length_le ⟨_, hfront⟩ (List.suffix_append _ _) hlength
  cases hgap.2 particle (hsuffix.subset List.mem_cons_self)

end Shape

namespace Step

open Shape Text

variable {line label value before after : String}

/-- A typing step written with single blanks, and blanks around it. -/
def written (before label value after : String) : String :=
  before ++ label ++ " に " ++ value ++ " を入力" ++ after

theorem trim_written (hbefore : ∀ c ∈ before.toList, isBlank c = true)
    (hafter : ∀ c ∈ after.toList, isBlank c = true) (hlabel : IsWord label.toList) :
    trim (written before label value after).toList =
      label.toList ++ ' ' :: particle :: ' ' :: (value.toList ++ ' ' :: fillEnding) := by
  have htext : (written before label value after).toList =
      before.toList ++ (((label.toList ++ ' ' :: particle :: ' ' :: (value.toList ++ [' '])) ++
        fillEnding) ++ after.toList) := by
    simp [written, particle, fillEnding]
  have hhead : (label.toList ++ ' ' :: particle :: ' ' :: (value.toList ++ [' '])).head?.any
      isBlank = false := by
    rw [Option.any_eq_false]
    exact fun c hc => by simp [hlabel.head?_append _ c hc]
  rw [htext, trim_blank_append (trimStart_eq_nil_iff.2 hbefore),
    trim_append_blank _ (trimStart_eq_nil_iff.2 hafter), trim_append hhead (by decide) (by decide)]
  simp

/-- What a step of a document says has no blank around it and no line feed in it. -/
theorem trim_of_mem_flatten {text : String} {source : Option String} {s : FlatStep}
    (h : s ∈ (Suite.parse text source).flatten) : trim s.step.toList = s.step.toList ∧
      '\n' ∉ s.step.toList := by
  obtain ⟨line, hline, hstep⟩ := Suite.exists_line_of_mem_flatten h
  rw [hstep, Suite.stepOf, String.toList_ofList]
  unfold Suite.stripBullet
  refine ⟨trim_trim _, fun hfeed => ?_⟩
  have hmem : '\n' ∈ line :=
    mem_of_mem_trim ((List.dropWhile_suffix _).subset (mem_of_mem_trim hfeed))
  cases unbroken_of_mem_lines hline '\n' hmem

/-- What is read of a line is parted at its last separator. -/
theorem parted_of_action (hfeed : '\n' ∉ line.toList)
    (h : (classify line).action = .fill label value) :
    Parted (trim line.toList) label.toList value.toList :=
  parted_of_labelAndValue? (trim_eq_self_iff.1 (trim_trim _)).1 (fun hmem => hfeed (mem_of_mem_trim hmem))
    (action_eq_fill_iff.1 h)

/-- **A typing step is parted at its last separator.** No step of a document has a line
feed in it. In whatever is classified as a typing step without one, the label is a word,
and the value is trimmed and has no separator in it. The other way round, a label and a
value that are written with single blanks are read back where there is no separator in
the value, and just where there is a value at all. -/
theorem typing_parted :
    (∀ (text : String) (source : Option String), ∀ s ∈ (Suite.parse text source).flatten,
      '\n' ∉ s.step.toList) ∧
    (∀ line : String, '\n' ∉ line.toList →
      let record := (classify line).classification
      record.kind = .fill → ∃ label value : String, record.target = some label ∧
        record.value = some value ∧ Parted (trim line.toList) label.toList value.toList) ∧
    ∀ before label value after : String, (∀ c ∈ before.toList, isBlank c = true) →
      (∀ c ∈ after.toList, isBlank c = true) → IsWord label.toList →
      trim value.toList = value.toList → '\n' ∉ value.toList →
      ¬HasSeparator (' ' :: value.toList) →
      let record := (classify (written before label value after)).classification
      (record.kind = .fill ∧ record.target = some label ∧ record.value = some value) ↔
        value ≠ "" := by
  refine ⟨fun _ _ _ h => (trim_of_mem_flatten h).2, fun line hfeed hkind => ?_,
    fun before label value after hbefore hafter hlabel htrim hfeed hseparator => ?_⟩
  · cases haction : (classify line).action with
    | fill label value =>
      refine ⟨label, value, ?_, ?_, parted_of_action hfeed haction⟩
      · simp [classification, haction, Action.target?]
      · simp [classification, haction, Action.value?]
    | _ => simp [classification, haction, Action.kind] at hkind
  · refine record_fill_iff.trans (action_eq_fill_iff.trans ?_)
    rw [trim_written hbefore hafter hlabel]
    by_cases hempty : value = ""
    · subst hempty
      have hhead := hlabel.head?_append (' ' :: particle :: ' ' :: ' ' :: fillEnding)
      have hunfed : '\n' ∉ label.toList ++ ' ' :: particle :: ' ' :: ' ' :: fillEnding := by
        simp [hlabel.unfed, particle, fillEnding]
      refine iff_of_false (fun hread => ?_) (fun h => h rfl)
      exact not_valueless_written ((labelAndValue?_eq_nil_iff hhead hunfed).1 ⟨_, hread⟩)
    · have hne : value.toList ≠ [] := fun h => hempty (String.toList_inj.1 h)
      exact iff_of_true (labelAndValue?_written hlabel ⟨hne, htrim, hfeed⟩ hseparator) hempty

/-- A label with a separator in it, and a value that holds the shape of another step
and ends with a particle. -/
theorem typing_parted_disguised :
    IsWord "名前 に 姓".toList ∧ trim "/a に移動 に".toList = "/a に移動 に".toList ∧
      '\n' ∉ "/a に移動 に".toList ∧ ¬HasSeparator (' ' :: "/a に移動 に".toList) ∧
      let record := (classify "\t名前 に 姓 に /a に移動 に を入力\n").classification
      record.kind = .fill ∧ record.target = some "名前 に 姓" ∧
        record.value = some "/a に移動 に" := by
  have hlabel : IsWord "名前 に 姓".toList := ⟨by decide, by decide, by decide⟩
  have hseparator : ¬HasSeparator (' ' :: "/a に移動 に".toList) := by
    rintro ⟨x, y, -, hy, h⟩
    have hnext : x = ' ' ∧ y = '移' := by
      simpa [List.infix_cons_iff, List.cons_prefix_cons, particle] using h
    rw [hnext.2] at hy
    cases hy
  exact ⟨hlabel, by decide, by decide, hseparator,
    (typing_parted.2.2 "\t" "名前 に 姓" "/a に移動 に" "\n" (List.all_eq_true.1 rfl)
      (List.all_eq_true.1 rfl) hlabel (by decide) (by decide) hseparator).2 (by decide)⟩

end Step

/-! ## Records that say enough -/

/-- **A record that says all that its kind asks for:** what it is aimed at and, of a
typing step, what is to be typed. -/
structure Classification.Complete (c : Classification) : Prop where
  aimed : c.kind ≠ .unrecognized →
    ∃ target, c.target = some target ∧ target ≠ "" ∧ Text.trimmed target = target
  filled : c.kind = .fill →
    ∃ value, c.value = some value ∧ value ≠ "" ∧ Text.trimmed value = value

namespace Step

open Shape Text

variable {line : String} {text : String} {source : Option String} {s : FlatStep}

theorem trimmed_eq_self {t : String} (h : trim t.toList = t.toList) : trimmed t = t := by
  rw [trimmed, h, String.ofList_toList]

/-- **Whatever is recognized is aimed at something.** -/
theorem exists_target (hfeed : '\n' ∉ line.toList)
    (h : (classify line).classification.kind ≠ .unrecognized) :
    ∃ target, (classify line).classification.target = some target ∧ target ≠ "" ∧
      trimmed target = target := by
  have hword {target : String} (hword : IsWord target.toList) :
      target ≠ "" ∧ trimmed target = target := by
    refine ⟨?_, trimmed_eq_self hword.trimmed⟩
    rintro rfl
    exact hword.ne_nil rfl
  cases haction : (classify line).action with
  | navigate target =>
    obtain ⟨-, -, -, hpath⟩ := path?_eq_some_iff.1 (action_eq_navigate_iff.1 haction)
    exact ⟨target, by simp [classification, haction, Action.target?], hword hpath.isWord⟩
  | fill label value =>
    exact ⟨label, by simp [classification, haction, Action.target?],
      hword (parted_of_action hfeed haction).word⟩
  | click caption =>
    obtain ⟨-, -, -, hcaption⟩ := beforeGap?_before?_eq_some_iff.1 (action_eq_click_iff.1 haction)
    exact ⟨caption, by simp [classification, haction, Action.target?], hword hcaption⟩
  | assertVisible phrase =>
    obtain ⟨-, -, -, hphrase⟩ :=
      beforeGap?_before?_eq_some_iff.1 (action_eq_assertVisible_iff.1 haction)
    exact ⟨phrase, by simp [classification, haction, Action.target?], hword hphrase⟩
  | unrecognized => simp [classification, haction, Action.kind] at h

/-- **The empty text is typed** where a line leaves the value out. -/
theorem action_eq_fill_empty_iff (hfeed : '\n' ∉ line.toList) :
    (∃ label, (classify line).action = .fill label "") ↔ Valueless (trim line.toList) := by
  have hhead := (trim_eq_self_iff.1 (trim_trim line.toList)).1
  rw [← labelAndValue?_eq_nil_iff hhead fun hmem => hfeed (mem_of_mem_trim hmem)]
  constructor
  · rintro ⟨label, haction⟩
    exact ⟨label.toList, action_eq_fill_iff.1 haction⟩
  · rintro ⟨label, hread⟩
    refine ⟨String.ofList label, action_eq_fill_iff.2 ?_⟩
    rw [String.toList_ofList]
    exact hread

/-- **The steps of a document say enough** just where they leave no value out. What they
are aimed at they always say; and one that leaves the value out has the empty text
typed. -/
theorem complete_iff (h : s ∈ (Suite.parse text source).flatten) :
    let record := (classify s.step).classification
    (record.Complete ↔ ¬Valueless s.step.toList) ∧
      (record.kind ≠ .unrecognized →
        ∃ target, record.target = some target ∧ target ≠ "" ∧ trimmed target = target) ∧
      (Valueless s.step.toList → record.kind = .fill ∧ record.value = some "") := by
  obtain ⟨htrim, hfeed⟩ := trim_of_mem_flatten h
  have hempty := action_eq_fill_empty_iff hfeed
  rw [htrim] at hempty
  have hvalueless : Valueless s.step.toList → (classify s.step).classification.kind = .fill ∧
      (classify s.step).classification.value = some "" := by
    intro hvalueless
    obtain ⟨label, haction⟩ := hempty.2 hvalueless
    simp [classification, haction, Action.kind, Action.value?]
  refine ⟨⟨fun hcomplete hnone => ?_, fun hvalue => ⟨exists_target hfeed, fun hkind => ?_⟩⟩,
    exists_target hfeed, hvalueless⟩
  · obtain ⟨hkind, hnone⟩ := hvalueless hnone
    obtain ⟨value, hsome, hne, -⟩ := hcomplete.filled hkind
    rw [hnone] at hsome
    exact hne (Option.some.inj hsome).symm
  · cases haction : (classify s.step).action with
    | fill label value =>
      refine ⟨value, by simp [classification, haction, Action.value?], ?_,
        trimmed_eq_self (parted_of_action hfeed haction).trimmed⟩
      rintro rfl
      exact hvalue (hempty.1 ⟨label, haction⟩)
    | _ => simp [classification, haction, Action.kind] at hkind

/-- A document with a line that leaves the value out, and one that does not. -/
def halfFilled : String := "- 名前 に   を入力\n- 名前 に 山田 を入力"

/-- The first of its steps says too little. -/
theorem complete_iff_halfFilled :
    (⟨"default", "名前 に   を入力"⟩ : FlatStep) ∈ (Suite.parse halfFilled none).flatten ∧
      Valueless "名前 に   を入力".toList ∧
      ¬(classify "名前 に   を入力").classification.Complete := by
  have hmem : (⟨"default", "名前 に   を入力"⟩ : FlatStep) ∈ (Suite.parse halfFilled none).flatten := by
    decide
  have hvalueless : Valueless "名前 に   を入力".toList :=
    ⟨"名前".toList, [' '], [' ', ' ', ' '], by decide, ⟨by decide, by decide, by decide⟩, by decide,
      by decide, by decide⟩
  exact ⟨hmem, hvalueless, fun hcomplete => (complete_iff hmem).1.1 hcomplete hvalueless⟩

/-- **Not every step of a document says enough.** -/
theorem not_complete :
    ¬∀ (text : String) (source : Option String), ∀ s ∈ (Suite.parse text source).flatten,
      (classify s.step).classification.Complete := by
  intro h
  have hcomplete := h halfFilled none ⟨"default", "名前 に   を入力"⟩ (by decide)
  have hrecord : (classify "名前 に   を入力").classification =
      ⟨.fill, "名前 に   を入力", some "名前", some ""⟩ := by decide
  obtain ⟨value, hvalue, hne, -⟩ := hcomplete.filled (by decide)
  rw [hrecord] at hvalue
  exact hne (Option.some.inj hvalue).symm

end Step

end Walkthrough
