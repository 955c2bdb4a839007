import ValuePath.Proofs.Extraction.Congruence
import ValuePath.Query

/-!
# Extraction without a limit

The number of searches inside one another is limited, because hooks can make a search go on for
ever. The limit has no other part in an extraction: what is found within one limit is found within
every greater one, with the same log. So a query has at most one result over all limits.

* Searches are ordered: one is below another if the other finishes wherever it does, in the same
  way. `Search.isCongruence_le`: what goes on from searches keeps this order.
* `extractKey_le_extractKey` and `Step.extractHookedWithin_le`: a step is below the same step with a
  greater limit, whatever its hooks do.
* `Ends` is how several steps end within some limit, and `Query.Extracts` what a query results in.
* `Ends.unique`: there is one such end. `ends_of_extractAll`: it is the one that is found within the
  limit that a query has of its own.
-/

namespace ValuePath

/-! ## Searches below one another -/

namespace Search

variable {α β : Type}

/-- One search is below another if the other finishes wherever it does, in the same way. -/
instance : LE (Search α) where
  le s t := ∀ log result, s = finished log result → t = finished log result

/-- Every search is below itself. -/
theorem le_refl (s : Search α) : s ≤ s :=
  fun _ _ h => h

/-- An unfinished search is below every other. -/
theorem unfinished_le (s : Search α) : unfinished ≤ s :=
  fun _ _ h => nomatch h

/-- A search that goes on finishes exactly where both of its parts do. -/
theorem bind_eq_finished_iff {s : Search α} {f : α → Search β} {log : List Event} {b : β} :
    s >>= f = finished log b ↔
      ∃ first a rest, s = finished first a ∧ f a = finished rest b ∧ log = first ++ rest := by
  cases s with
  | unfinished =>
    rw [unfinished_bind]
    constructor
    · intro h
      cases h
    · rintro ⟨_, _, _, h, _⟩
      cases h
  | finished first a =>
    rw [finished_bind]
    constructor
    · intro h
      cases hrest : f a with
      | unfinished =>
        rw [hrest] at h
        cases h
      | finished rest b' =>
        rw [hrest] at h
        obtain ⟨rfl, rfl⟩ := finished.inj h
        exact ⟨first, a, rest, rfl, hrest, rfl⟩
    · rintro ⟨_, _, rest, h, hrest, rfl⟩
      obtain ⟨rfl, rfl⟩ := finished.inj h
      rw [hrest]

/-- What goes on from searches below one another keeps this order. -/
theorem isCongruence_le : IsCongruence fun s t => s ≤ t where
  pure a := le_refl (Pure.pure a)
  bind := by
    intro α β s t f g hst hfg log b h
    obtain ⟨first, a, rest, hs, hf, rfl⟩ := bind_eq_finished_iff.mp h
    exact bind_eq_finished_iff.mpr ⟨first, a, rest, hst first a hs, hfg a rest b hf, rfl⟩

end Search

/-! ## Greater limits -/

section Below

variable {search search' : Extraction} (hsearch : ∀ h, search h ≤ search' h)
include hsearch

/-- What a hook does is below what it does with a greater extraction behind it. -/
theorem Action.run_le_run (action : Action) : action.run search ≤ action.run search' := by
  -- the action is the same tree in both runs, and only its calls are answered by other searches
  induction action with
  | done found => exact Search.le_refl _
  | call handle resume ih => exact Search.isCongruence_le.bind (hsearch handle) ih
  | log event rest ih => exact Search.isCongruence_le.bind (Search.le_refl _) fun _ => ih

/-- Hooks around an extraction are below the same hooks around a greater one. -/
theorem Hook.wrap_le_wrap (hooks : List Hook) (h : Handle) :
    wrap hooks search h ≤ wrap hooks search' h := by
  -- the rest of the hooks is the extraction behind the first one
  induction hooks generalizing h with
  | nil => exact hsearch h
  | cons hook rest ih => exact Action.run_le_run ih (hook h)

end Below

/-- A step by name is below the same step with a greater limit. -/
theorem extractKey_le_extractKey (o : Options) (name : String) {limit limit' : Nat}
    (hle : limit ≤ limit') (h : Handle) :
    extractKey o name limit h ≤ extractKey o name limit' h := by
  induction limit generalizing limit' h with
  | zero => exact Search.unfinished_le _
  | succ limit ih =>
    obtain ⟨limit', rfl⟩ := Nat.exists_eq_add_of_lt hle
    -- only in a record are there searches inside, with a limit that is lower by one
    refine Search.isCongruence_le.extractKey o o.hooks name (fun g => ?_) h
    exact Hook.wrap_le_wrap (ih (Nat.le_add_right limit limit')) o.hooks g

/-- A step without the hooks around it is below the same step with a greater limit. -/
theorem Step.extractWithin_le (step : Step) (o : Options) {limit limit' : Nat}
    (hle : limit ≤ limit') (h : Handle) :
    step.extractWithin o limit h ≤ step.extractWithin o limit' h := by
  cases step with
  | key name => exact extractKey_le_extractKey o name hle h
  | index position => exact Search.le_refl _

/-- A step with hooks around it is below the same step with a greater limit. -/
theorem Step.extractHookedWithin_le (step : Step) (o : Options) {limit limit' : Nat}
    (hle : limit ≤ limit') (h : Handle) :
    step.extractHookedWithin o limit h ≤ step.extractHookedWithin o limit' h :=
  Hook.wrap_le_wrap (step.extractWithin_le o hle) o.hooks h

/-! ## Ends -/

/-- Several steps from a handle come to an end, within some limit, with an outcome. -/
def Ends (o : Options) (steps : List Step) (h : Handle) (outcome : Except Failure Handle) : Prop :=
  ∃ limit log, extractAll (·.extractHookedWithin o limit) steps h = .finished log outcome

section Ends

variable {o : Options} {steps : List Step} {h : Handle}

/-- What is found within a limit is found within every greater one. -/
theorem extractAll_eq_finished_of_le {limit limit' : Nat} (hle : limit ≤ limit')
    {log : List Event} {outcome : Except Failure Handle}
    (hends : extractAll (·.extractHookedWithin o limit) steps h = .finished log outcome) :
    extractAll (·.extractHookedWithin o limit') steps h = .finished log outcome :=
  Search.isCongruence_le.extractAll (fun step => step.extractHookedWithin_le o hle) steps h log
    outcome hends

/-- Several steps have one outcome over all limits. -/
theorem Ends.unique {outcome outcome' : Except Failure Handle} (hends : Ends o steps h outcome)
    (hends' : Ends o steps h outcome') : outcome = outcome' := by
  obtain ⟨limit, log, hends⟩ := hends
  obtain ⟨limit', log', hends'⟩ := hends'
  -- both outcomes are found within the greater limit, where there is only one
  have hmax := extractAll_eq_finished_of_le (Nat.le_max_left limit limit') hends
  have hmax' := extractAll_eq_finished_of_le (Nat.le_max_right limit limit') hends'
  exact (Search.finished.inj (hmax.symm.trans hmax')).2

/-- Steps that come to an end, each within a limit of its own, do so within one limit. -/
theorem ends_of_extractAll {log : List Event} {outcome : Except Failure Handle}
    (hends : extractAll (·.extractHooked o) steps h = .finished log outcome) :
    Ends o steps h outcome := by
  -- the limits of the steps differ, since each depends on the handle that the step begins at
  induction steps generalizing h log outcome with
  | nil => exact ⟨0, log, hends⟩
  | cons step rest ih =>
    obtain ⟨first, found?, more, hstep, hrest, rfl⟩ := Search.bind_eq_finished_iff.mp hends
    have hfirst {limit : Nat} (hle : h.nesting + 1 + searchReserve ≤ limit) :
        step.extractHookedWithin o limit h = .finished first found? :=
      step.extractHookedWithin_le o hle h first found? hstep
    cases found? with
    | none =>
      exact ⟨_, _, Search.bind_eq_finished_iff.mpr
        ⟨first, none, more, hfirst (Nat.le_refl _), hrest, rfl⟩⟩
    | some found =>
      dsimp only at hrest
      split at hrest
      next hrestricted =>
        refine ⟨_, _, Search.bind_eq_finished_iff.mpr
          ⟨first, some found, more, hfirst (Nat.le_refl _), ?_, rfl⟩⟩
        dsimp only
        rw [if_pos hrestricted, hrest]
      next hrestricted =>
        -- the limit of the first step and that of the others are both below their maximum
        obtain ⟨limit, more', hmore⟩ := ih hrest
        refine ⟨max (h.nesting + 1 + searchReserve) limit, _, Search.bind_eq_finished_iff.mpr
          ⟨first, some found, more', hfirst (Nat.le_max_left _ _), ?_, rfl⟩⟩
        dsimp only
        rw [if_neg hrestricted]
        exact extractAll_eq_finished_of_le (Nat.le_max_right _ _) hmore

end Ends

/-! ## Results of queries -/

namespace Query

/-- The result that a query has from an outcome of its steps. -/
def answer (q : Query) : Except Failure Handle → Except Error Value
  | .ok h => .ok (h.value?.getD .null)
  | .error failure => .error (.failed failure q.text)

/-- The query has a result, within some limit on the searches inside one another. -/
def Extracts (q : Query) (target : Value) (result : Except Error Value) : Prop :=
  ∃ limit log, q.extractBy (·.extractHookedWithin q.options limit) target = .finished log result

/-- A query takes its steps and answers with their outcome. -/
theorem extractBy_eq (q : Query) (take : Step → Extraction) (target : Value) :
    q.extractBy take target =
      extractAll take q.steps (Handle.ofValue target) >>= fun outcome =>
        pure (q.answer outcome) := by
  rw [extractBy]
  refine congrArg _ (funext fun outcome => ?_)
  cases outcome <;> rfl

/-- A query finishes exactly where its steps do. -/
theorem extractBy_eq_finished_iff {q : Query} {take : Step → Extraction} {target : Value}
    {log : List Event} {result : Except Error Value} :
    q.extractBy take target = .finished log result ↔
      ∃ outcome, extractAll take q.steps (Handle.ofValue target) = .finished log outcome ∧
        result = q.answer outcome := by
  rw [extractBy_eq, Search.bind_eq_finished_iff]
  constructor
  · rintro ⟨first, outcome, rest, hsteps, hanswer, rfl⟩
    obtain ⟨rfl, rfl⟩ := Search.finished.inj hanswer
    rw [List.append_nil]
    exact ⟨outcome, hsteps, rfl⟩
  · rintro ⟨outcome, hsteps, rfl⟩
    exact ⟨log, outcome, [], hsteps, rfl, (List.append_nil log).symm⟩

/-- The results of a query come from the outcomes of its steps. -/
theorem extracts_iff {q : Query} {target : Value} {result : Except Error Value} :
    q.Extracts target result ↔
      ∃ outcome, Ends q.options q.steps (Handle.ofValue target) outcome ∧
        result = q.answer outcome := by
  constructor
  · rintro ⟨limit, log, hextract⟩
    obtain ⟨outcome, hsteps, hresult⟩ := extractBy_eq_finished_iff.mp hextract
    exact ⟨outcome, ⟨limit, log, hsteps⟩, hresult⟩
  · rintro ⟨outcome, ⟨limit, log, hsteps⟩, hresult⟩
    exact ⟨limit, log, extractBy_eq_finished_iff.mpr ⟨outcome, hsteps, hresult⟩⟩

/-- A query that comes to an end within the limit of its own has the result found there. -/
theorem extracts_of_extract {q : Query} {target : Value} {log : List Event}
    {result : Except Error Value} (hextract : q.extract target = .finished log result) :
    q.Extracts target result := by
  obtain ⟨outcome, hsteps, hresult⟩ := extractBy_eq_finished_iff.mp hextract
  exact extracts_iff.mpr ⟨outcome, ends_of_extractAll hsteps, hresult⟩

end Query

end ValuePath
