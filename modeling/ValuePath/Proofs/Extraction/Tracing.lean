import ValuePath.Hook.Standard
import ValuePath.Proofs.Extraction.Limit

/-!
# Tracing

A trace hook writes to the log when it is entered and when it is left, and hands on everything
else. So an extraction does not change when trace hooks are put among its hooks, wherever that is
and however often the other hooks call what stands behind them. If the other hooks leave the log
alone, the log is nested: what is entered last is left first.

* `IsNested` is the order of the log, decided with a stack of the hooks that are still to be left.
* `Hook.Silent` are the hooks that leave the log alone, and `Hook.Traced` puts trace hooks among
  hooks.
* `Search.TracedBy` compares a search with one that writes a nested log besides. It is kept by the
  hooks around an extraction (`Search.TracedBy.wrap`), by a step (`extractKey_tracedBy`) and by
  a query (`Query.extractBy_tracedBy`).
* `Query.extract_withHooks`: with trace hooks a query has the same results, and a nested log.
-/

namespace ValuePath

/-! ## Nested logs -/

/-- The names of the hooks that are still to be left after an event, the last one entered first.
None but this one can be left. -/
def Event.pending? : List String → Event → Option (List String)
  | pending, enter id _ => some (id :: pending)
  | id :: pending, leave id' _ => if id = id' then some pending else none
  | [], leave _ _ => none

/-- Whether all hooks that are entered are left again, the last one entered first. -/
def IsNested (log : List Event) : Prop :=
  log.foldlM Event.pending? [] = some []

instance (log : List Event) : Decidable (IsNested log) :=
  inferInstanceAs (Decidable (_ = _))

/-- Hooks that were entered before have no part in an event that leaves none of them. -/
theorem Event.pending?_append {pending after : List String} {event : Event}
    (h : event.pending? pending = some after) (outer : List String) :
    event.pending? (pending ++ outer) = some (after ++ outer) := by
  cases event with
  | enter id handle =>
    obtain rfl := Option.some.inj h
    rfl
  | leave id' found =>
    cases pending with
    | nil => cases h
    | cons id pending =>
      rw [pending?] at h
      rw [List.cons_append, pending?]
      split at h
      next hsame =>
        obtain rfl := Option.some.inj h
        rw [if_pos hsame]
      next => cases h

/-- Hooks that were entered before have no part in events that leave none of them. -/
theorem foldlM_pending?_append {pending after : List String} {log : List Event}
    (h : log.foldlM Event.pending? pending = some after) (outer : List String) :
    log.foldlM Event.pending? (pending ++ outer) = some (after ++ outer) := by
  -- the hooks entered last are at the front, so that those entered before are never reached
  induction log generalizing pending with
  | nil =>
    obtain rfl := Option.some.inj h
    rfl
  | cons event rest ih =>
    rw [List.foldlM_cons] at h ⊢
    obtain ⟨next, hevent, hrest⟩ := Option.bind_eq_some_iff.mp h
    exact Option.bind_eq_some_iff.mpr ⟨next ++ outer, event.pending?_append hevent outer, ih hrest⟩

namespace IsNested

theorem nil : IsNested [] :=
  rfl

/-- Nested logs one behind the other are nested. -/
theorem append {log more : List Event} (hlog : IsNested log) (hmore : IsNested more) :
    IsNested (log ++ more) := by
  rw [IsNested, List.foldlM_append, hlog]
  exact hmore

/-- A nested log is nested when it stands between entering a hook and leaving it. -/
theorem around {log : List Event} (hlog : IsNested log) (id : String) (handle : Handle)
    (found : Option Handle) : IsNested (.enter id handle :: (log ++ [.leave id found])) := by
  have hinner : log.foldlM Event.pending? [id] = some [id] := foldlM_pending?_append hlog [id]
  have hleave : Event.pending? [id] (Event.leave id found) = some [] := if_pos rfl
  show (log ++ [Event.leave id found]).foldlM Event.pending? [id] = some []
  rw [List.foldlM_append, hinner]
  show (Event.pending? [id] (Event.leave id found)).bind some = some []
  rw [hleave]
  rfl

end IsNested

/-! ## Hooks -/

/-- Actions that do not write to the log, whatever is found. -/
inductive Action.Silent : Action → Prop
  | done (found : Option Handle) : Silent (.done found)
  | call (handle : Handle) {resume : Option Handle → Action} :
      (∀ found, Silent (resume found)) → Silent (.call handle resume)

namespace Hook

/-- Hooks that do not write to the log. -/
def Silent (hook : Hook) : Prop :=
  ∀ handle, (hook handle).Silent

/-- What only looks at what was found is silent. -/
theorem silent_mapFound (f : Handle → Option Handle) : Silent fun handle => mapFound handle f :=
  fun handle => .call handle fun found => .done (found.bind f)

/-- The second list has the hooks of the first one in their order, and trace hooks among them. -/
inductive Traced : List Hook → List Hook → Prop
  | nil : Traced [] []
  | keep (hook : Hook) {hooks hooks' : List Hook} :
      Traced hooks hooks' → Traced (hook :: hooks) (hook :: hooks')
  | insert (id : String) {hooks hooks' : List Hook} :
      Traced hooks hooks' → Traced hooks (trace id :: hooks')

end Hook

/-! ## Traced searches -/

namespace Search

/-- Both searches find the same, or both are unfinished. The first one has no
log, and the second one has a nested one. -/
inductive TracedBy {α : Type} : Search α → Search α → Prop
  | unfinished : TracedBy .unfinished .unfinished
  | finished {log : List Event} (result : α) :
      IsNested log → TracedBy (.finished [] result) (.finished log result)

/-- What goes on from searches of which one traces the other has the logs one behind the other. -/
theorem isCongruence_tracedBy : IsCongruence TracedBy where
  pure a := .finished a .nil
  bind := by
    intro α β s t f g hst hfg
    cases hst with
    | unfinished => exact .unfinished
    | @finished log a hlog =>
      have hrest := hfg a
      rw [finished_bind, finished_bind]
      generalize f a = s at hrest
      generalize g a = t at hrest
      cases hrest with
      | unfinished => exact .unfinished
      | @finished more b hmore => exact .finished b (hlog.append hmore)

namespace TracedBy

variable {search search' : Extraction}

/-- A trace hook around the second search is left after it was entered, with the log of the search
in between. -/
theorem trace {s t : Search (Option Handle)} (h : TracedBy s t) (id : String) (handle : Handle) :
    TracedBy s (do
      tell (.enter id handle)
      let found ← t
      tell (.leave id found)
      return found) := by
  cases h with
  | unfinished => exact .unfinished
  | @finished log found hlog => exact .finished found (hlog.around id handle found)

/-- What a silent hook does keeps the log of each call. -/
theorem run {action : Action} (hsilent : action.Silent)
    (hsearch : ∀ h, TracedBy (search h) (search' h)) :
    TracedBy (action.run search) (action.run search') := by
  induction hsilent with
  | done found => exact isCongruence_tracedBy.pure found
  | call handle _ ih => exact isCongruence_tracedBy.bind (hsearch handle) ih

/-- Hooks around a search, and the same hooks with trace hooks among them. -/
theorem wrap {hooks hooks' : List Hook} (htraced : Hook.Traced hooks hooks')
    (hsilent : ∀ hook ∈ hooks, hook.Silent) (hsearch : ∀ h, TracedBy (search h) (search' h))
    (h : Handle) : TracedBy (Hook.wrap hooks search h) (Hook.wrap hooks' search' h) := by
  induction htraced generalizing h with
  | nil => exact hsearch h
  | keep hook _ ih =>
    have hrest := ih fun other hmem => hsilent other (List.mem_cons_of_mem hook hmem)
    exact run (hsilent hook List.mem_cons_self h) hrest
  | insert id _ ih =>
    -- the trace hook hands its handle on to the hooks behind it, which are traced already
    exact (ih hsilent h).trace id h

/-- A traced search has the same result. -/
theorem result?_eq {α : Type} {s t : Search α} (h : TracedBy s t) : t.result? = s.result? := by
  cases h <;> rfl

/-- The log of a search that traces another is nested. -/
theorem isNested_log {α : Type} {s t : Search α} (h : TracedBy s t) : IsNested t.log := by
  cases h with
  | unfinished => exact .nil
  | finished result hlog => exact hlog

/-- A search comes to an end with a result exactly where the one that it traces does. -/
theorem exists_finished_iff {α : Type} {s t : Search α} (h : TracedBy s t) {result : α} :
    (∃ log, t = .finished log result) ↔ ∃ log, s = .finished log result := by
  cases h with
  | unfinished => exact Iff.rfl
  | finished result' _ => simp

end TracedBy

end Search

/-! ## Traced queries -/

section Traced

variable {o : Options} {hooks' : List Hook} (htraced : Hook.Traced o.hooks hooks')
  (hsilent : ∀ hook ∈ o.hooks, hook.Silent)
include htraced hsilent

/-- A step by name is traced by the same step with trace hooks among the hooks, also where these
stand around the searches in inline fields. -/
theorem extractKey_tracedBy (name : String) (limit : Nat) (h : Handle) :
    (extractKey o name limit h).TracedBy (extractKey { o with hooks := hooks' } name limit h) := by
  induction limit generalizing h with
  | zero => exact .unfinished
  | succ limit ih =>
    -- all hooks stand again around each search in an inline field, whose limit is lower by one
    exact Search.isCongruence_tracedBy.extractKey o hooks' name (.wrap htraced hsilent ih) h

/-- A step with its hooks is traced by the same step with trace hooks among them. -/
theorem Step.extractHookedWithin_tracedBy (step : Step) (limit : Nat) (h : Handle) :
    (step.extractHookedWithin o limit h).TracedBy
      (step.extractHookedWithin { o with hooks := hooks' } limit h) := by
  refine .wrap htraced hsilent (fun g => ?_) h
  cases step with
  | key name => exact extractKey_tracedBy htraced hsilent name limit g
  | index position => exact Search.isCongruence_tracedBy.pure (extractIndex position g)

end Traced

namespace Query

/-- The query with other hooks. -/
def withHooks (q : Query) (hooks : List Hook) : Query :=
  { q with options := { q.options with hooks } }

/-- A query is traced by the same query with steps that trace its own. -/
theorem extractBy_tracedBy (q : Query) (hooks' : List Hook) {take take' : Step → Extraction}
    (htake : ∀ step h, (take step h).TracedBy (take' step h)) (target : Value) :
    (q.extractBy take target).TracedBy ((q.withHooks hooks').extractBy take' target) := by
  rw [extractBy_eq, extractBy_eq]
  refine Search.isCongruence_tracedBy.bind ?_ fun outcome => ?_
  · exact Search.isCongruence_tracedBy.extractAll htake q.steps (Handle.ofValue target)
  · exact Search.isCongruence_tracedBy.pure (q.answer outcome)

/-- Trace hooks among silent hooks are not noticed. A query that comes to an end has the same result
with them and without them, within any limit and within that of its own, and if one of the two comes
to an end, so does the other. The log that the trace hooks leave is nested. -/
theorem extract_withHooks (q : Query) {hooks' : List Hook}
    (htraced : Hook.Traced q.options.hooks hooks')
    (hsilent : ∀ hook ∈ q.options.hooks, hook.Silent) (target : Value) :
    (∀ result, (q.withHooks hooks').Extracts target result ↔ q.Extracts target result) ∧
      (∀ limit log result,
        (q.withHooks hooks').extractBy
            (·.extractHookedWithin (q.withHooks hooks').options limit) target =
          .finished log result → IsNested log) ∧
      ((q.withHooks hooks').extract target).result? = (q.extract target).result? ∧
      IsNested ((q.withHooks hooks').extract target).log := by
  have hwithin (limit : Nat) :
      (q.extractBy (·.extractHookedWithin q.options limit) target).TracedBy
        ((q.withHooks hooks').extractBy
          (·.extractHookedWithin (q.withHooks hooks').options limit) target) :=
    q.extractBy_tracedBy hooks'
      (fun step h => step.extractHookedWithin_tracedBy htraced hsilent limit h) target
  have hown : (q.extract target).TracedBy ((q.withHooks hooks').extract target) :=
    q.extractBy_tracedBy hooks'
      (fun step h => step.extractHookedWithin_tracedBy htraced hsilent _ h) target
  refine ⟨fun result => ?_, fun limit log result hlog => ?_, hown.result?_eq, hown.isNested_log⟩
  · exact exists_congr fun limit => (hwithin limit).exists_finished_iff
  · have hnested := (hwithin limit).isNested_log
    rw [hlog] at hnested
    exact hnested

/-- Two trace hooks, outside and inside a hook that puts a plus sign in front of what is found. Each
of them is entered for the step and once more for the embedded field, around which all hooks stand
again. -/
theorem extract_withHooks_of_embedded :
    let target : Value := .record ⟨"Outer", [⟨"inner", [], true, true,
      .record ⟨"Inner", [⟨"x", [], true, false, .string "y"⟩]⟩⟩]⟩
    let q : Query := { steps := [.key "x"], options := { hooks := [Hook.prepend "+"] } }
    let traced := q.withHooks [Hook.trace "a", Hook.prepend "+", Hook.trace "b"]
    (q.extract target).result? = some (.ok (.string "++y")) ∧
      (traced.extract target).result? = some (.ok (.string "++y")) ∧
      (traced.extract target).log.length = 8 ∧ IsNested (traced.extract target).log := by
  intro target q traced
  have htraced : Hook.Traced q.options.hooks
      [Hook.trace "a", Hook.prepend "+", Hook.trace "b"] :=
    .insert "a" (.keep _ (.insert "b" .nil))
  have hsilent : ∀ hook ∈ q.options.hooks, hook.Silent :=
    List.forall_mem_singleton.mpr (Hook.silent_mapFound _)
  obtain ⟨-, -, hresult, hnested⟩ := q.extract_withHooks htraced hsilent target
  have hfound : (q.extract target).result? = some (.ok (.string "++y")) := rfl
  exact ⟨hfound, hresult.trans hfound, rfl, hnested⟩

end Query

end ValuePath
