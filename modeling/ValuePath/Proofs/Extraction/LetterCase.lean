import Mathlib.Data.List.Forall2
import ValuePath.Object.Standard
import ValuePath.Proofs.Extraction.Reach

/-!
# The case of letters

Where case is ignored, it does not matter how the names of a path are spelled: two paths whose names
are the same up to case are followed alike, to the same value or to the same failure. Objects answer
for themselves, so that they have to ignore case too.

To ignore case finds more than not to ignore it, in maps, among the fields of a record and in its
inline fields. It may find something else, but it never loses what was found: where a single step
finds something, it still does, and where that is open, what it finds then is open too.

* `Value.candidates_eq_of_foldCase` and `Step.find?_eq_of_sameButCase` respell a single name, and
  `Step.findAll_eq_of_sameButCase` all names of a path.
* `Query.extract_respell` is the same for queries.
* `Value.exists_mem_candidates_ignoringCase` says that no candidate is lost when case is ignored,
  and `Step.extract_key_ignoringCase` what this means for a step by name.
-/

namespace ValuePath

/-! ## Names that are the same up to case -/

section SameName

variable {name name' : String} (hname : Text.foldCase name = Text.foldCase name')
include hname

/-- Where case is ignored, names that are the same up to case agree with the same texts. -/
theorem KeyMatching.agree_eq_of_foldCase (text : String) :
    agree ⟨true⟩ text name = agree ⟨true⟩ text name' := by
  simp [agree, hname]

/-- Where case is ignored, the same entry answers to names that are the same up to case. -/
theorem Entries.find?_eq_of_foldCase (entries : Entries) :
    find? ⟨true⟩ name entries = find? ⟨true⟩ name' entries := by
  have hanswers : answers ⟨true⟩ name = answers ⟨true⟩ name' := by
    ext key
    simp only [answers, KeyMatching.agree_eq_of_foldCase hname]
  rw [find?, find?, hanswers]

/-- Where case is ignored, the same fields answer to names that are the same up to case. -/
theorem Options.answers_eq_of_foldCase {o : Options} (hcase : o.caseInsensitive = true) :
    o.answers name = o.answers name' := by
  ext f
  simp only [answers, matching, hcase, KeyMatching.agree_eq_of_foldCase hname]

end SameName

/-- Two steps are the same up to case: they have the same position, or names with the same lower
case. -/
inductive Step.SameButCase : Step → Step → Prop
  | key {name name' : String} :
      Text.foldCase name = Text.foldCase name' → SameButCase (.key name) (.key name')
  | index (position : UInt64) : SameButCase (.index position) (.index position)

/-! ## Objects that ignore case -/

/-- Where case is ignored, the object answers alike to names that are the same up to case. -/
def Object.IsCaseBlind (o : Object Value) : Prop :=
  ∀ name name', Text.foldCase name = Text.foldCase name' →
    o.lookupKey? ⟨true⟩ name = o.lookupKey? ⟨true⟩ name'

/-- All objects behind the value, also those in the answers of objects, ignore case. -/
def Value.IsCaseBlind (v : Value) : Prop :=
  ∀ o, v.LeadsTo ⟨true⟩ (.object o) → o.IsCaseBlind

/-- What stands behind a value whose objects ignore case is such a value again. -/
theorem Value.IsCaseBlind.of_leadsTo {v w : Value} (hblind : v.IsCaseBlind)
    (hw : v.LeadsTo ⟨true⟩ w) : w.IsCaseBlind :=
  fun o ho => hblind o (hw.trans ho)

/-! ## Respelled paths -/

section Respelled

variable {o : Options} (hcase : o.caseInsensitive = true)
include hcase

/-- Where case is ignored, the same candidates answer to names that are the same up to case. -/
theorem Value.candidates_eq_of_foldCase {name name' : String}
    (hname : Text.foldCase name = Text.foldCase name') {v : Value} (hblind : v.IsCaseBlind) :
    v.candidates o name = v.candidates o name' := by
  have hmatching : o.matching = ⟨true⟩ := congrArg KeyMatching.mk hcase
  induction v with
  | map entries ih =>
    rw [candidates, candidates, hmatching, Entries.find?_eq_of_foldCase hname]
  | object object =>
    rw [candidates, candidates, hmatching, hblind object (.refl _) name name' hname]
  | record r ih =>
    have hinline (f : Field Value) (hf : f ∈ r.fields.filter o.isInline) :
        f.value.candidates o name = f.value.candidates o name' := by
      have hmem : f ∈ r.fields := (List.mem_filter.mp hf).1
      exact ih f hmem (hblind.of_leadsTo (.field hmem (.refl _)))
    rw [candidates, candidates, inlineCandidates_eq, inlineCandidates_eq,
      Options.answers_eq_of_foldCase hname hcase, List.flatMap_def, List.flatMap_def]
    -- the direct matches are the same by now, and the inline fields are by induction
    congr 2
    apply List.map_congr_left
    intro f hf
    rw [hinline f hf]
  | pointer v ih => exact ih (hblind.of_leadsTo (.pointer (.refl v)))
  | null | boolean | integer | float | string | array | nullPointer => rfl

/-- Where case is ignored, steps that are the same up to case find the same. -/
theorem Step.find?_eq_of_sameButCase {step step' : Step} (hstep : step.SameButCase step')
    {h : Handle} (hblind : ∀ v ∈ h.value?, v.IsCaseBlind) :
    step.find? o h = step'.find? o h := by
  cases hstep with
  | index position => rfl
  | @key name name' hname =>
    have hcandidates : h.candidates o name = h.candidates o name' := by
      obtain ⟨_ | v, restricted⟩ := h
      · rfl
      · exact Value.candidates_eq_of_foldCase hcase hname (hblind v rfl)
    rw [find?, find?, Handle.candidateHandles, Handle.candidateHandles, hcandidates]

/-- Where case is ignored, rows of steps that are the same up to case find the same. -/
theorem Step.findAll_eq_of_sameButCase {steps steps' : List Step}
    (hsteps : List.Forall₂ SameButCase steps steps') {h : Handle}
    (hblind : ∀ v ∈ h.value?, v.IsCaseBlind) : findAll o steps h = findAll o steps' h := by
  induction hsteps generalizing h with
  | nil => rfl
  | @cons step step' rest rest' hstep _ ih =>
    rw [findAll, findAll, find?_eq_of_sameButCase hcase hstep hblind]
    cases hfound : step'.find? o h with
    | none => rfl
    | some found =>
      -- the rest of the way begins behind the handle, where all objects ignore case too
      have hrest : ∀ u ∈ found.value?, u.IsCaseBlind := by
        obtain ⟨v, u, hv, hu, hreach⟩ := leadsTo_of_find? hfound
        rw [show o.matching = ⟨true⟩ from congrArg KeyMatching.mk hcase] at hreach
        simpa [hu] using (hblind v hv).of_leadsTo hreach
      simp only [ih hrest]

end Respelled

/-- Where case is ignored, two queries without hooks whose steps are the same up to case find the
same value, or fail in the same way. All objects behind the target have to ignore case too. -/
theorem Query.extract_respell (q q' : Query) (hoptions : q'.options = q.options)
    (hplain : q.options.hooks = []) (hcase : q.options.caseInsensitive = true)
    (hsteps : List.Forall₂ Step.SameButCase q.steps q'.steps) (target : Value)
    (hblind : target.IsCaseBlind) :
    (∃ failure, q.extract target = pure (.error (.failed failure q.text)) ∧
      q'.extract target = pure (.error (.failed failure q'.text))) ∨
    ∃ v, q.extract target = pure (.ok v) ∧ q'.extract target = pure (.ok v) := by
  have hfound : Step.findAll q.options q.steps (Handle.ofValue target) =
      Step.findAll q.options q'.steps (Handle.ofValue target) :=
    Step.findAll_eq_of_sameButCase hcase hsteps (by simpa [Handle.ofValue] using hblind)
  have hplain' : q'.options.hooks = [] := by rw [hoptions, hplain]
  rw [q.extract_eq_findAll hplain, q'.extract_eq_findAll hplain', hoptions, hfound]
  cases Step.findAll q.options q'.steps (Handle.ofValue target) with
  | error failure => exact .inl ⟨failure, rfl, rfl⟩
  | ok h => exact .inr ⟨h.value?.getD .null, rfl, rfl⟩

/-- A capital letter of two characters in lower case, in a tag and in the names that ask for it, and
an object behind a pointer that has one answer to all names. -/
theorem Query.extract_respell_of_tag :
    let answer : Value := .array [.null, .boolean true]
    let env : Value := .pointer (some (.object (Object.constant 1 (some answer))))
    let tags := [("json", "\u0130D,omitempty")]
    let target : Value := .record ⟨"Config", [⟨"env", tags, true, false, env⟩]⟩
    let o : Options := { caseInsensitive := true, tags := ["json"] }
    let q : Query := ⟨[.key "\u0130d", .key "home", .index 1], false, o⟩
    let q' : Query := ⟨[.key "I\u0307d", .key "HOME", .index 1], true, o⟩
    o.hooks = [] ∧ o.caseInsensitive = true ∧ q'.options = q.options ∧
      List.Forall₂ Step.SameButCase q.steps q'.steps ∧ target.IsCaseBlind ∧
      q.extract target = pure (.ok (.boolean true)) ∧
      ((∃ failure, q.extract target = pure (.error (.failed failure q.text)) ∧
        q'.extract target = pure (.error (.failed failure q'.text))) ∨
      ∃ v, q.extract target = pure (.ok v) ∧ q'.extract target = pure (.ok v)) := by
  intro answer env tags target o q q'
  have hid : Text.foldCase "\u0130d" = Text.foldCase "I\u0307d" := by decide +kernel
  have hhome : Text.foldCase "home" = Text.foldCase "HOME" := by decide +kernel
  have hsteps : List.Forall₂ Step.SameButCase q.steps q'.steps :=
    .cons (.key hid) (.cons (.key hhome) (.cons (.index 1) .nil))
  have hblind : target.IsCaseBlind := by
    intro object hreach
    change (Value.record _).LeadsTo ⟨true⟩ _ at hreach
    cases hreach with
    | field hmem hreach =>
      obtain rfl := List.mem_singleton.mp hmem
      cases hreach with
      | pointer hreach =>
        cases hreach with
        | refl => exact fun name name' _ => rfl
        | key hanswer hreach =>
          -- neither item of the answer is an object
          obtain rfl := Option.some.inj hanswer
          change (Value.array _).LeadsTo ⟨true⟩ _ at hreach
          cases hreach with
          | item hmem hreach =>
            simp only [List.mem_cons, List.not_mem_nil, or_false] at hmem
            rcases hmem with rfl | rfl <;> cases hreach
        | index hanswer => cases hanswer
  exact ⟨rfl, rfl, rfl, hsteps, hblind, rfl,
    q.extract_respell q' rfl rfl rfl hsteps target hblind⟩

/-! ## Case ignored -/

/-- The same options, but for the case of letters, which is ignored. -/
def Options.ignoringCase (o : Options) : Options :=
  { o with caseInsensitive := true }

/-- Names that agree still do when case is ignored. -/
theorem KeyMatching.agree_ignoringCase {m : KeyMatching} {text name : String}
    (hagree : m.agree text name = true) : agree ⟨true⟩ text name = true := by
  unfold agree at hagree ⊢
  split at hagree <;> simp_all

/-- A key that answers to a name still does when case is ignored. -/
theorem Entries.answers_ignoringCase {m : KeyMatching} {name : String} {key : Value}
    (hanswers : answers m name key = true) : answers ⟨true⟩ name key = true := by
  unfold answers at hanswers ⊢
  cases hkey : key.keyText? with
  | none => simp [hkey] at hanswers
  | some text =>
    rw [hkey, Option.any_some] at hanswers
    exact KeyMatching.agree_ignoringCase hanswers

/-- A map that has an answer to a name still has one when case is ignored, if only another one. -/
theorem Entries.exists_find?_ignoringCase {m : KeyMatching} {name : String} {entries : Entries}
    {v : Value} (hfound : find? m name entries = some v) :
    ∃ u, find? ⟨true⟩ name entries = some u := by
  obtain ⟨entry, hentry, -⟩ := Option.map_eq_some_iff.mp hfound
  have hanswers : answers m name entry.1 = true := by simpa using List.find?_some hentry
  apply Option.isSome_iff_exists.mp
  rw [find?, Option.isSome_map, List.find?_isSome]
  exact ⟨entry, List.mem_of_find?_eq_some hentry, answers_ignoringCase hanswers⟩

/-- A field that answers to a name still does when case is ignored. -/
theorem Options.answers_ignoringCase {o : Options} {name : String} {f : Field Value}
    (hanswers : o.answers name f = true) : o.ignoringCase.answers name f = true := by
  obtain ⟨candidate, hmem, hagree⟩ := List.any_eq_true.mp hanswers
  exact List.any_eq_true.mpr ⟨candidate, hmem, KeyMatching.agree_ignoringCase hagree⟩

/-- All objects behind the value, also those in the answers of objects, that have an answer to the
name still have one when case is ignored. -/
def Value.KeepsAnswers (m : KeyMatching) (name : String) (v : Value) : Prop :=
  ∀ object, v.LeadsTo m (.object object) → (object.lookupKey? m name).isSome →
    (object.lookupKey? ⟨true⟩ name).isSome

section IgnoringCase

variable {o : Options} {name : String}

/-- For each candidate there is one when case is ignored that is hidden exactly if the first one is.
The objects behind the value must not lose their answers. -/
theorem Value.exists_mem_candidates_ignoringCase {v : Value}
    (hobjects : v.KeepsAnswers o.matching name) {c : Candidate} (hc : c ∈ v.candidates o name) :
    ∃ c' ∈ v.candidates o.ignoringCase name, c'.hidden = c.hidden := by
  induction v generalizing c with
  | map entries ih =>
    simp only [candidates, Option.mem_toList, Option.map_eq_some_iff] at hc ⊢
    obtain ⟨u, hfound, rfl⟩ := hc
    obtain ⟨w, hfound'⟩ := Entries.exists_find?_ignoringCase hfound
    exact ⟨.answer w, ⟨w, hfound', rfl⟩, rfl⟩
  | object object =>
    simp only [candidates, Option.mem_toList, Option.map_eq_some_iff] at hc ⊢
    obtain ⟨u, hanswer, rfl⟩ := hc
    have hsome := hobjects object (.refl _) (by rw [hanswer, Option.isSome_some])
    obtain ⟨w, hanswer'⟩ := Option.isSome_iff_exists.mp hsome
    exact ⟨.answer w, ⟨w, hanswer', rfl⟩, rfl⟩
  | record r ih =>
    -- which fields are inline does not depend on the case of letters
    rcases (mem_candidates_record o name).mp hc with
      ⟨f, hf, hinline, hanswers, rfl⟩ | ⟨f, hf, hinline, inner, hinner, rfl⟩
    · refine ⟨.direct f, (mem_candidates_record _ name).mpr (.inl ?_), rfl⟩
      exact ⟨f, hf, hinline, Options.answers_ignoringCase hanswers, rfl⟩
    · have hbehind : f.value.KeepsAnswers o.matching name :=
        fun object hreach => hobjects object (.field hf hreach)
      obtain ⟨inner', hinner', hsame⟩ := ih f hf hbehind hinner
      refine ⟨inner'.through f, (mem_candidates_record _ name).mpr (.inr ?_), ?_⟩
      · exact ⟨f, hf, hinline, inner', hinner', rfl⟩
      · rw [Candidate.hidden_through, Candidate.hidden_through, hsame]
  | pointer v ih => exact ih (fun object hreach => hobjects object (.pointer hreach)) hc
  | null | boolean | integer | float | string | array | nullPointer =>
    simp [candidates, candidatesOfContent] at hc

/-- For each handle to be chosen from there is one when case is ignored that is restricted exactly
if the first one is. -/
theorem Handle.exists_mem_candidateHandles_ignoringCase {h : Handle}
    (hobjects : ∀ v ∈ h.value?, v.KeepsAnswers o.matching name) {g : Handle}
    (hg : g ∈ h.candidateHandles o name) :
    ∃ g' ∈ h.candidateHandles o.ignoringCase name, g'.isRestricted = g.isRestricted := by
  obtain ⟨v?, restricted⟩ := h
  obtain ⟨c, hc, rfl⟩ := List.mem_map.mp hg
  cases v? with
  | none => cases hc
  | some v =>
    obtain ⟨c', hc', hsame⟩ := v.exists_mem_candidates_ignoringCase (hobjects v rfl) hc
    refine ⟨c'.handle restricted, List.mem_map_of_mem hc', ?_⟩
    simp [hsame]

end IgnoringCase

/-- Without hooks, what a step by name finds is not lost when case is ignored: the step still finds
something then, and it finds something open if it did before. The objects behind the handle must
not lose their answers. -/
theorem Step.extract_key_ignoringCase (o : Options) (hplain : o.hooks = []) (name : String)
    (h : Handle) (hobjects : ∀ v ∈ h.value?, v.KeepsAnswers o.matching name) :
    ∃ found? found'?,
      (key name).extract o h = pure found? ∧ (key name).extractHooked o h = pure found? ∧
      (key name).extract o.ignoringCase h = pure found'? ∧
      (key name).extractHooked o.ignoringCase h = pure found'? ∧
      (found?.isSome → found'?.isSome) ∧
      ((∃ found ∈ found?, found.isRestricted = false) →
        ∃ found' ∈ found'?, found'.isRestricted = false) := by
  have hplain' : o.ignoringCase.hooks = [] := hplain
  refine ⟨_, _, extract_eq_find? hplain _ h, extractHooked_eq_find? hplain _ h,
    extract_eq_find? hplain' _ h, extractHooked_eq_find? hplain' _ h, ?_, ?_⟩
  · intro hfound
    obtain ⟨found, hchosen⟩ := Option.isSome_iff_exists.mp hfound
    obtain ⟨g, hg, -⟩ :=
      Handle.exists_mem_candidateHandles_ignoringCase hobjects (mem_of_choose hchosen)
    rw [find?, Option.isSome_iff_ne_none, ne_eq, choose_eq_none_iff]
    exact List.ne_nil_of_mem hg
  · simp only [find?, exists_choose_open_iff]
    rintro ⟨g, hg, hopen⟩
    obtain ⟨g', hg', hsame⟩ := Handle.exists_mem_candidateHandles_ignoringCase hobjects hg
    exact ⟨g', hg', hsame.trans hopen⟩

/-- Where case is ignored a hidden field answers as well, and in the map behind it another entry.
What is found instead is still open. -/
theorem Step.extract_key_ignoringCase_of_hidden_field :
    let entries : Entries := [(.string "X", .null), (.string "x", .boolean true)]
    let h : Handle := .ofValue (.record ⟨"Outer", [⟨"X", [], false, false, .string "hidden"⟩,
      ⟨"part", [], true, true, .map entries⟩,
      ⟨"env", [], true, true, .object (Object.constant 1 (some .null))⟩]⟩)
    ({} : Options).hooks = [] ∧
      (∀ v ∈ h.value?, v.KeepsAnswers ({} : Options).matching "x") ∧
      ∃ found? found'?, (key "x").extract {} h = pure found? ∧
        (key "x").extractHooked {} h = pure found? ∧
        (key "x").extract (Options.ignoringCase {}) h = pure found'? ∧
        (key "x").extractHooked (Options.ignoringCase {}) h = pure found'? ∧
        (found?.isSome → found'?.isSome) ∧
        ((∃ found ∈ found?, found.isRestricted = false) →
          ∃ found' ∈ found'?, found'.isRestricted = false) ∧
        found? = some (.ofValue (.boolean true)) ∧ found'? = some (.ofValue .null) := by
  intro entries h
  have hobjects : ∀ v ∈ h.value?, v.KeepsAnswers ({} : Options).matching "x" := by
    intro v hv object hreach
    obtain rfl := Option.some.inj hv
    cases hreach with
    | field hmem hreach =>
      simp only [List.mem_cons, List.not_mem_nil, or_false] at hmem
      rcases hmem with rfl | rfl | rfl
      · cases hreach
      · cases hreach with
        | entry hmem hreach =>
          simp only [entries, List.mem_cons, List.not_mem_nil, or_false] at hmem
          rcases hmem with rfl | rfl <;> cases hreach
      · cases hreach with
        | refl => exact fun _ => rfl
        | key hanswer hreach =>
          obtain rfl := Option.some.inj hanswer
          cases hreach
        | index hanswer => cases hanswer
  obtain ⟨found?, found'?, hfound, hhooked, hfound', hhooked', hkept, hopen⟩ :=
    extract_key_ignoringCase {} rfl "x" h hobjects
  refine ⟨rfl, hobjects, found?, found'?, hfound, hhooked, hfound', hhooked', hkept, hopen, ?_, ?_⟩
  · have hsame : Search.done found? = Search.done _ := hfound.symm.trans rfl
    exact (Search.finished.inj hsame).2
  · have hsame : Search.done found'? = Search.done _ := hfound'.symm.trans rfl
    exact (Search.finished.inj hsame).2

end ValuePath
