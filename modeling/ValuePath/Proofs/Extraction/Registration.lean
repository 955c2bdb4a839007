import ValuePath.Hook.Standard
import ValuePath.Options.Standard
import ValuePath.Proofs.Extraction.Limit

/-!
# The order of registrations

Options list the keys of the tags that name fields, and the predicates that make fields inline. The
order of either list does not matter, nor does it matter how often something stands in it: a field
answers to a name if any of its tags gives it that name, and it is inline if any predicate or tag
says so. Which field wins is up to the record alone.

* `Options.Alike` are options that an extraction does not tell apart, and
  `Step.extractHookedWithin_eq_of_alike` is why. The hooks see nothing of the options.
* `Options.SameRegistrations` are options with the same tags and the same predicates in any order,
  and any number of times. `Options.SameRegistrations.alike`: these are alike.
* `Query.extract_of_sameRegistrations` is what follows for queries.
-/

namespace ValuePath

/-! ## What an extraction reads of its options -/

/-- An extraction does not tell the options apart: names are compared in the same way, the same
hooks stand around each step, and the same fields answer to a name or are inline. -/
structure Options.Alike (o o' : Options) : Prop where
  /-- Names are compared in the same way. -/
  matching : o.matching = o'.matching
  /-- The hooks are the same, in the same order. -/
  hooks : o.hooks = o'.hooks
  /-- The same fields answer to the same names. -/
  answers : ∀ name f, o.answers name f = o'.answers name f
  /-- The same fields are inline. -/
  isInline : ∀ f, o.isInline f = o'.isInline f

section Alike

variable {o o' : Options} (ho : o.Alike o')
include ho

/-- Alike options have the same direct matches in a record. -/
theorem directMatches_eq_of_alike (name : String) (h : Handle) (r : Record Value) :
    directMatches o name h r = directMatches o' name h r := by
  simp only [directMatches, ho.answers, ho.isInline]

/-- Alike options have the same inline fields in a record. -/
theorem inlineHandles_eq_of_alike (h : Handle) (r : Record Value) :
    inlineHandles o h r = inlineHandles o' h r := by
  have hinline : o.isInline = o'.isInline := funext ho.isInline
  rw [inlineHandles, inlineHandles, hinline]

/-- Alike options have the same search in a record. -/
theorem searchRecord_eq_of_alike (name : String) (search : Extraction) (h : Handle)
    (r : Record Value) :
    searchRecord o name search h r = searchRecord o' name search h r := by
  rw [searchRecord, searchRecord, directMatches_eq_of_alike ho, inlineHandles_eq_of_alike ho]

/-- Alike options have the same step by name, within every limit. -/
theorem extractKey_eq_of_alike (name : String) (limit : Nat) :
    extractKey o name limit = extractKey o' name limit := by
  -- the limit counts the records inside one another, and the inner ones are searched alike
  induction limit with
  | zero => rfl
  | succ limit ih =>
    funext h
    simp only [extractKey, ho.matching, ho.hooks, ih, searchRecord_eq_of_alike ho]

/-- Alike options have the same step with hooks around it, within every limit. -/
theorem Step.extractHookedWithin_eq_of_alike (step : Step) (limit : Nat) :
    step.extractHookedWithin o limit = step.extractHookedWithin o' limit := by
  rw [extractHookedWithin, extractHookedWithin, ho.hooks]
  cases step with
  | key name => rw [extractWithin, extractWithin, extractKey_eq_of_alike ho]
  | index position => rfl

/-- Alike options have the same step with hooks around it. -/
theorem Step.extractHooked_eq_of_alike (step : Step) :
    step.extractHooked o = step.extractHooked o' := by
  funext h
  rw [extractHooked, extractHooked, extractHookedWithin_eq_of_alike ho]

end Alike

/-! ## Registrations -/

namespace Options

/-- The names of a field are those in its tags, empty ones apart, and its own. -/
theorem mem_fieldNames_iff {o : Options} {f : Field Value} {name : String} :
    name ∈ o.fieldNames f ↔
      (name ≠ "" ∧ ∃ key ∈ o.tags, ∃ value ∈ f.tagValue? key, tagName value = name) ∨
      name = o.ownName f := by
  simp [fieldNames, and_comm]

/-- A field answers to a name if one of its own names agrees with it, whichever comes first. -/
theorem answers_iff {o : Options} {name : String} {f : Field Value} :
    o.answers name f ↔ ∃ candidate ∈ o.fieldNames f, o.matching.agree candidate name :=
  List.any_eq_true

/-- A field is inline if it is embedded, or if a predicate or a tag says so. -/
theorem isInline_iff {o : Options} {f : Field Value} :
    o.isInline f ↔
      f.embedded ∨ (∃ holds ∈ o.inlinePredicates, holds f) ∨
      ∃ key ∈ o.tags, ∃ value ∈ f.tagValue? key, hasInlineFlag value := by
  simp [isInline, or_assoc, Option.any_eq_true]

/-- The options differ at most in the order in which tags and predicates are listed, and in how
often each of them is. -/
structure SameRegistrations (o o' : Options) : Prop where
  /-- Both ignore case, or neither does. -/
  caseInsensitive_eq : o.caseInsensitive = o'.caseInsensitive
  /-- The hooks are the same, in the same order. -/
  hooks_eq : o.hooks = o'.hooks
  /-- The own names of fields are the same. -/
  ownName?_eq : o.ownName? = o'.ownName?
  /-- The same tags name fields. -/
  mem_tags_iff : ∀ key, key ∈ o.tags ↔ key ∈ o'.tags
  /-- The same predicates make fields inline. -/
  mem_inlinePredicates_iff : ∀ holds, holds ∈ o.inlinePredicates ↔ holds ∈ o'.inlinePredicates

/-- To list tags and predicates in another order, or several times, makes no difference to an
extraction. -/
theorem SameRegistrations.alike {o o' : Options} (ho : o.SameRegistrations o') : o.Alike o' := by
  have hmatching : o.matching = o'.matching := congrArg KeyMatching.mk ho.caseInsensitive_eq
  have hown (f : Field Value) : o.ownName f = o'.ownName f := by
    rw [ownName, ownName, ho.ownName?_eq]
  -- a field has the same names from either list of tags, though not in the same order
  have hnames (f : Field Value) (name : String) :
      name ∈ o.fieldNames f ↔ name ∈ o'.fieldNames f := by
    simp only [mem_fieldNames_iff, ho.mem_tags_iff, hown]
  constructor
  case matching => exact hmatching
  case hooks => exact ho.hooks_eq
  case answers =>
    intro name f
    rw [Bool.eq_iff_iff, answers_iff, answers_iff, hmatching]
    simp only [hnames]
  case isInline =>
    intro f
    rw [Bool.eq_iff_iff, isInline_iff, isInline_iff]
    simp only [ho.mem_tags_iff, ho.mem_inlinePredicates_iff]

end Options

namespace Query

section Alike

variable (q : Query) {o' : Options} (ho : q.options.Alike o') (target : Value)
include ho

/-- A query with alike options is followed in the same way, within every limit. -/
theorem extractBy_eq_of_alike (limit : Nat) :
    { q with options := o' }.extractBy (·.extractHookedWithin o' limit) target =
      q.extractBy (·.extractHookedWithin q.options limit) target := by
  have htake : (fun step : Step => step.extractHookedWithin q.options limit) =
      fun step => step.extractHookedWithin o' limit :=
    funext fun step => step.extractHookedWithin_eq_of_alike ho limit
  -- the answer of a query has the text of its steps, and nothing of its options
  rw [htake, extractBy_eq, extractBy_eq]
  rfl

/-- A query with alike options finds the same value or fails in the same way. -/
theorem extract_eq_of_alike : { q with options := o' }.extract target = q.extract target := by
  have htake : (fun step : Step => step.extractHooked q.options) =
      fun step => step.extractHooked o' :=
    funext fun step => step.extractHooked_eq_of_alike ho
  rw [extract, extract, htake, extractBy_eq, extractBy_eq]
  rfl

end Alike

/-- Tags and inline predicates may be listed in another order, or several times. The query still
finds the same value or fails in the same way, with the same log of its hooks. It has a result
within some limit on its searches exactly where it had one, and the same one. -/
theorem extract_of_sameRegistrations (q : Query) {o' : Options}
    (ho : q.options.SameRegistrations o') (target : Value) :
    { q with options := o' }.extract target = q.extract target ∧
    ∀ result, { q with options := o' }.Extracts target result ↔ q.Extracts target result := by
  refine ⟨q.extract_eq_of_alike ho.alike target, fun result => ?_⟩
  refine exists_congr fun limit => exists_congr fun log => ?_
  rw [q.extractBy_eq_of_alike ho.alike]

/-- A record whose hidden field has the name in one tag, and whose inline field has a field with the
name in another. Both tags and both predicates are listed in another order, and some twice. -/
theorem extract_of_sameRegistrations_of_tags :
    let base : Value := .record ⟨"Base", [⟨"B", [("json", "NAME")], true, false, .integer 2⟩]⟩
    let target : Value := .record ⟨"Config",
      [⟨"A", [("yaml", "name")], false, false, .integer 1⟩,
        ⟨"base", [], true, false, base⟩]⟩
    let o : Options :=
      { caseInsensitive := true
        tags := ["json", "yaml"]
        hooks := [Hook.trace "outer", Hook.followAfter]
        inlinePredicates := [InlineRule.named "base", InlineRule.tagged "extra"]
        ownName? := some NameRule.lowered }
    let o' : Options :=
      { o with
        tags := ["yaml", "json", "yaml"]
        inlinePredicates := [InlineRule.tagged "extra", InlineRule.named "base",
          InlineRule.named "base"] }
    let q : Query := ⟨[.key "name"], false, o⟩
    q.options.SameRegistrations o' ∧ (q.extract target).result? = some (.ok (.integer 2)) ∧
      { q with options := o' }.extract target = q.extract target ∧
      ∀ result, { q with options := o' }.Extracts target result ↔ q.Extracts target result := by
  intro base target o o' q
  have ho : q.options.SameRegistrations o' :=
    { caseInsensitive_eq := rfl
      hooks_eq := rfl
      ownName?_eq := rfl
      mem_tags_iff := by
        intro key
        simp [q, o, o', or_comm, or_left_comm]
      mem_inlinePredicates_iff := by
        intro holds
        simp [q, o, o', or_comm] }
  exact ⟨ho, rfl, q.extract_of_sameRegistrations ho target⟩

end Query

end ValuePath
