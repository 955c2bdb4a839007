import ValuePath.Hook.Standard
import ValuePath.Proofs.Extraction.Limit
import ValuePath.Proofs.Extraction.Plain

/-!
# Queries one behind the other

A query with more steps behind its own is the query and then the rest, which begins anew at the
value that the query found. What passes from one step to the next is a handle, not a value. But a
query goes on only from a handle that may be handed out, so that a value is all there is to it,
unless a hook took the value away. Without hooks no handle is without a value, and the two queries
are one after another the same as both in one.

* `ends_append_iff`: several steps and then more of them.
* `Ends.eq_ofValue`: where steps end with a value, they end with an open handle to it.
* `Query.extracts_appendAll` is the same for queries and their results.
-/

namespace ValuePath

/-! ## Steps and more steps -/

/-- Several steps and then more of them, which begin at the handle found. -/
theorem extractAll_append (take : Step → Extraction) (steps more : List Step) (h : Handle) :
    extractAll take (steps ++ more) h =
      extractAll take steps h >>= fun
        | .error failure => pure (.error failure)
        | .ok found => extractAll take more found := by
  induction steps generalizing h with
  | nil => rw [extractAll, pure_bind, List.nil_append]
  | cons step rest ih =>
    rw [List.cons_append, extractAll, extractAll, bind_assoc]
    refine congrArg _ (funext fun found? => ?_)
    cases found? with
    | none => rw [pure_bind]
    | some found =>
      dsimp only
      split
      · rw [pure_bind]
      · exact ih found

section Ends

variable {o : Options} {steps more : List Step} {h g : Handle}

/-- Several steps and then more of them end with a failure of the first steps, or as the others do
behind the handle found. -/
theorem ends_append_iff {outcome : Except Failure Handle} :
    Ends o (steps ++ more) h outcome ↔
      (∃ failure, Ends o steps h (.error failure) ∧ outcome = .error failure) ∨
        ∃ found, Ends o steps h (.ok found) ∧ Ends o more found outcome := by
  constructor
  · rintro ⟨limit, log, hends⟩
    rw [extractAll_append] at hends
    obtain ⟨first, outcome', rest, hfirst, hrest, -⟩ := Search.bind_eq_finished_iff.mp hends
    cases outcome' with
    | error failure =>
      refine .inl ⟨failure, ⟨limit, first, hfirst⟩, ?_⟩
      exact (Search.finished.inj hrest).2.symm
    | ok found => exact .inr ⟨found, ⟨limit, first, hfirst⟩, limit, rest, hrest⟩
  · rintro (⟨failure, ⟨limit, log, hfirst⟩, rfl⟩ |
      ⟨found, ⟨limit, log, hfirst⟩, limit', log', hmore⟩)
    · refine ⟨limit, log ++ [], ?_⟩
      rw [extractAll_append]
      exact Search.bind_eq_finished_iff.mpr ⟨log, _, [], hfirst, rfl, rfl⟩
    · -- both parts are found within the greater of their limits
      refine ⟨max limit limit', log ++ log', ?_⟩
      rw [extractAll_append]
      have hfirst := extractAll_eq_finished_of_le (Nat.le_max_left limit limit') hfirst
      have hmore := extractAll_eq_finished_of_le (Nat.le_max_right limit limit') hmore
      exact Search.bind_eq_finished_iff.mpr ⟨log, _, log', hfirst, hmore, rfl⟩

/-- Steps from an open handle are gone on from open handles only, and end with one. -/
theorem isRestricted_of_extractAll {take : Step → Extraction} {log : List Event}
    (hopen : h.isRestricted = false)
    (hends : extractAll take steps h = .finished log (.ok g)) : g.isRestricted = false := by
  -- what a hook restricts is an error at once, and only the last handle can be without a value
  induction steps generalizing h log with
  | nil =>
    obtain ⟨-, hsame⟩ := Search.finished.inj hends
    rwa [← Except.ok.inj hsame]
  | cons step rest ih =>
    obtain ⟨_, found?, _, -, hrest, -⟩ := Search.bind_eq_finished_iff.mp hends
    cases found? with
    | none => cases hrest
    | some found =>
      dsimp only at hrest
      split at hrest
      next => cases hrest
      next hfound => exact ih (Bool.eq_false_iff.mpr hfound) hrest

/-- An open handle with a value is the open handle to it. -/
theorem Handle.eq_ofValue {u : Value} (hopen : g.isRestricted = false)
    (hvalue : g.value? = some u) : g = ofValue u := by
  obtain ⟨v?, restricted⟩ := g
  obtain rfl : v? = some u := hvalue
  obtain rfl : restricted = false := (Bool.and_true restricted).symm.trans hopen
  rfl

/-- Steps from an open handle that end with a value end with the open handle to it. -/
theorem Ends.eq_ofValue {u v : Value} (hends : Ends o steps (Handle.ofValue v) (.ok g))
    (hvalue : g.value? = some u) : g = Handle.ofValue u := by
  obtain ⟨limit, log, hends⟩ := hends
  exact Handle.eq_ofValue (isRestricted_of_extractAll rfl hends) hvalue

/-- Without hooks, steps from an open handle end with an open handle to a value. -/
theorem Ends.exists_eq_ofValue (hplain : o.hooks = []) {v : Value}
    (hends : Ends o steps (Handle.ofValue v) (.ok g)) : ∃ u, g = Handle.ofValue u := by
  -- within whatever limit the steps end, they end as the steps without hooks do
  have hfound := hends.unique (ends_of_extractAll (Step.extractAll_eq_findAll hplain steps _))
  have hfollow := Step.toOption_findAll o steps v
  rw [← hfound, Except.toOption, eq_comm, Option.map_eq_some_iff] at hfollow
  obtain ⟨u, -, rfl⟩ := hfollow
  exact ⟨u, rfl⟩

end Ends

/-! ## Queries and more steps -/

/-- The same error for another path. -/
def Error.withPath (path : String) : Error → Error
  | .failed failure _ => .failed failure path
  | error => error

namespace Query

/-- A query with more steps answers as the rest alone does, but for the path in an error. -/
theorem answer_appendAll (q : Query) (more : List Step) (outcome : Except Failure Handle) :
    (q.appendAll more).answer outcome =
      (({ q with steps := more } : Query).answer outcome).mapError
        (Error.withPath (q.appendAll more).text) := by
  cases outcome <;> rfl

/-- An error of a query has the written form of the query for its path. -/
theorem exists_failed_of_extracts {q : Query} {target : Value} {error : Error}
    (hextracts : q.Extracts target (.error error)) :
    ∃ failure, error = .failed failure q.text ∧
      Ends q.options q.steps (Handle.ofValue target) (.error failure) := by
  obtain ⟨outcome, hends, hanswer⟩ := extracts_iff.mp hextracts
  cases outcome with
  | error failure => exact ⟨failure, Except.error.inj hanswer, hends⟩
  | ok found => cases hanswer

/-- If the steps of a query fail, the query with more steps has that failure for its only result. -/
theorem extracts_appendAll_iff_of_error {q : Query} {target : Value} {failure : Failure}
    (hends : Ends q.options q.steps (Handle.ofValue target) (.error failure)) (more : List Step)
    (result : Except Error Value) :
    (q.appendAll more).Extracts target result ↔
      result = .error (.failed failure (q.appendAll more).text) := by
  constructor
  · intro hextracts
    obtain ⟨outcome, hall, rfl⟩ := extracts_iff.mp hextracts
    rcases ends_append_iff.mp hall with ⟨failure', hends', rfl⟩ | ⟨found, hends', -⟩
    · obtain rfl := Except.error.inj (hends.unique hends')
      rfl
    · -- the steps cannot end in two ways
      cases hends.unique hends'
  · rintro rfl
    exact extracts_iff.mpr ⟨.error failure, ends_append_iff.mpr (.inl ⟨failure, hends, rfl⟩), rfl⟩

/-- If the steps of a query end with a value, the query with more steps has the results that the
rest has from that value. -/
theorem extracts_appendAll_iff_of_ok {q : Query} {target u : Value}
    (hends : Ends q.options q.steps (Handle.ofValue target) (.ok (Handle.ofValue u)))
    (more : List Step) (result : Except Error Value) :
    (q.appendAll more).Extracts target result ↔
      ∃ rest, ({ q with steps := more } : Query).Extracts u rest ∧
        result = rest.mapError (Error.withPath (q.appendAll more).text) := by
  constructor
  · intro hextracts
    obtain ⟨outcome, hall, rfl⟩ := extracts_iff.mp hextracts
    rcases ends_append_iff.mp hall with ⟨failure, hends', -⟩ | ⟨found, hends', hmore⟩
    · cases hends.unique hends'
    · obtain rfl := Except.ok.inj (hends.unique hends')
      exact ⟨_, extracts_iff.mpr ⟨outcome, hmore, rfl⟩, q.answer_appendAll more outcome⟩
  · rintro ⟨_, hrest, rfl⟩
    obtain ⟨outcome, hmore, rfl⟩ := extracts_iff.mp hrest
    refine extracts_iff.mpr ⟨outcome, ?_, (q.answer_appendAll more outcome).symm⟩
    exact ends_append_iff.mpr (.inr ⟨_, hends, hmore⟩)

/-- Without hooks, a query with more steps is the query and then the rest, but for the path in an
error. -/
theorem extract_appendAll (q : Query) (hplain : q.options.hooks = []) (more : List Step)
    (target : Value) :
    (q.appendAll more).extract target =
      q.extract target >>= fun
        | .error error => pure (.error (error.withPath (q.appendAll more).text))
        | .ok u => (·.mapError (Error.withPath (q.appendAll more).text)) <$>
            ({ q with steps := more } : Query).extract u := by
  have hends : Ends q.options q.steps (Handle.ofValue target) _ :=
    ends_of_extractAll (Step.extractAll_eq_findAll hplain q.steps _)
  rw [extract, extract, extractBy_eq, extractBy_eq, appendAll, extractAll_append,
    Step.extractAll_eq_findAll hplain]
  simp only [pure_bind]
  cases hfound : Step.findAll q.options q.steps (Handle.ofValue target) with
  | error failure => rfl
  | ok found =>
    rw [hfound] at hends
    -- the rest begins at an open handle, as a query does
    obtain ⟨u, rfl⟩ := hends.exists_eq_ofValue hplain
    show extractAll _ more (Handle.ofValue u) >>= _ = _ <$> extractBy _ _ u
    rw [extractBy_eq, map_bind]
    refine congrArg _ (funext fun outcome => ?_)
    exact congrArg pure (q.answer_appendAll more outcome)

end Query

/-- A query with more steps behind its own, whatever the hooks do: it fails as the query does, with
the path of the whole; and where the query ends with a value, it has the results that the rest has
from that value. Every error names the whole path. Without hooks a query always ends with a value,
so that the query with more steps is the query and then the rest. -/
theorem Query.extracts_appendAll (q : Query) (more : List Step) (target : Value) :
    (∀ failure path, q.Extracts target (.error (.failed failure path)) →
      ∀ result, (q.appendAll more).Extracts target result ↔
        result = .error (.failed failure (q.appendAll more).text)) ∧
    (∀ h u, Ends q.options q.steps (Handle.ofValue target) (.ok h) → h.value? = some u →
      ∀ result, (q.appendAll more).Extracts target result ↔
        ∃ rest, ({ q with steps := more } : Query).Extracts u rest ∧
          result = rest.mapError (Error.withPath (q.appendAll more).text)) ∧
    (∀ error, (q.appendAll more).Extracts target (.error error) →
      ∃ failure, error = .failed failure (q.appendAll more).text) ∧
    (q.options.hooks = [] →
      (∀ h, Ends q.options q.steps (Handle.ofValue target) (.ok h) → h.isValid = true) ∧
      (q.appendAll more).extract target =
        q.extract target >>= fun
          | .error error => pure (.error (error.withPath (q.appendAll more).text))
          | .ok u => (·.mapError (Error.withPath (q.appendAll more).text)) <$>
              ({ q with steps := more } : Query).extract u) := by
  refine ⟨?_, ?_, ?_, ?_⟩
  · intro failure path hextracts
    obtain ⟨failure', herror, hends⟩ := exists_failed_of_extracts hextracts
    obtain ⟨rfl, -⟩ := Error.failed.inj herror
    exact extracts_appendAll_iff_of_error hends more
  · intro h u hends hvalue
    obtain rfl := hends.eq_ofValue hvalue
    exact extracts_appendAll_iff_of_ok hends more
  · intro error hextracts
    obtain ⟨failure, herror, -⟩ := exists_failed_of_extracts hextracts
    exact ⟨failure, herror⟩
  · intro hplain
    refine ⟨fun h hends => ?_, q.extract_appendAll hplain more target⟩
    obtain ⟨u, rfl⟩ := hends.exists_eq_ofValue hplain
    rfl

/-- A hook that lifts restrictions leads through a hidden field, behind which the rest goes on.
Without the hook the query fails there, and so does every query that goes on from it. -/
theorem Query.extracts_appendAll_of_hidden_field :
    let inner : Value := .map [(.string "x", .boolean true)]
    let outer : Value := .record ⟨"Outer", [⟨"inner", [], false, false, inner⟩]⟩
    let plain : Query := ⟨[.key "inner"], true, {}⟩
    let lifted : Query := ⟨[.key "inner"], true, { hooks := [Hook.allow] }⟩
    lifted.Extracts outer (.ok inner) ∧
      (∀ result, (lifted.appendAll [.key "x"]).Extracts outer result ↔
        ∃ rest, ({ lifted with steps := [.key "x"] } : Query).Extracts inner rest ∧
          result = rest.mapError (Error.withPath (lifted.appendAll [.key "x"]).text)) ∧
      (lifted.appendAll [.key "x"]).Extracts outer (.ok (.boolean true)) ∧
      plain.Extracts outer (.error (.failed .accessDenied "$.inner")) ∧
      (∀ result, (plain.appendAll [.key "x"]).Extracts outer result ↔
        result = .error (.failed .accessDenied "$.inner.x")) ∧
      plain.options.hooks = [] ∧
      (plain.appendAll [.key "x"]).extract outer =
        plain.extract outer >>= fun
          | .error error => pure (.error (error.withPath "$.inner.x"))
          | .ok u => (·.mapError (Error.withPath "$.inner.x")) <$>
              ({ plain with steps := [.key "x"] } : Query).extract u := by
  intro inner outer plain lifted
  have hends : Ends lifted.options lifted.steps (Handle.ofValue outer)
      (.ok (Handle.ofValue inner)) := ends_of_extractAll (Eq.refl (Search.finished [] _))
  have hfails : plain.Extracts outer (.error (.failed .accessDenied "$.inner")) :=
    extracts_of_extract (Eq.refl (Search.finished [] _))
  have hrest : ({ lifted with steps := [.key "x"] } : Query).Extracts inner (.ok (.boolean true)) :=
    extracts_of_extract (Eq.refl (Search.finished [] _))
  have hlifted := (lifted.extracts_appendAll [.key "x"] outer).2.1 _ _ hends rfl
  have hplain := plain.extracts_appendAll [.key "x"] outer
  refine ⟨?_, hlifted, (hlifted _).mpr ⟨_, hrest, rfl⟩, hfails, hplain.1 _ _ hfails, rfl,
    (hplain.2.2.2 rfl).2⟩
  exact extracts_of_extract (Eq.refl (Search.finished [] _))

end ValuePath
