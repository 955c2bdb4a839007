import ValuePath.Hook.Standard
import ValuePath.Proofs.Extraction.Limit
import ValuePath.Proofs.Record.Candidates

/-!
# Hooks that forward

A search in an inline field is a whole step of its own, with all hooks around it, and the hooks
decide with what handles the step behind them is called. A hook forwards if it passes on only the
handle that it was given, the one behind the pointers of that, and handles to maps and objects. If
all hooks do, then each search inside another one is about a value that is less nested. So each
step comes to an end, whatever the hooks find or make of what was found, and the limit on searches
inside one another is never reached.

* `Action.Calls` says with what handles an action calls the extraction behind it when it is run, and
  `Hook.Reaches` the same for several hooks around an extraction.
* `Hook.IsForwarding` are the hooks that forward. `Hook.forall_isForwarding`: of the ready-made
  hooks they are all but `Hook.twice`.
* `Hook.isFinished_wrap`: hooks come to an end if the extraction behind them does for all that
  reaches it, because what a hook does is an action, which makes finitely many calls.
  `Hook.nesting_le_of_reaches`: nothing that reaches it is more nested than what the hooks were
  given.
* `Step.terminates_of_isForwarding` puts these together, by induction on the limit, and
  `Query.extract_isFinished` draws the conclusion for queries.
* `Step.extractHookedWithin_eq_unfinished`: with other hooks a step may search for ever.
-/

namespace ValuePath

/-! ## Searches that come to an end -/

namespace Search

variable {α β : Type}

/-- The search comes to an end. -/
def IsFinished (s : Search α) : Prop :=
  ∃ log result, s = finished log result

theorem IsFinished.pure (a : α) : (Pure.pure a : Search α).IsFinished :=
  ⟨[], a, rfl⟩

/-- A search that goes on comes to an end if what comes after its result does. -/
theorem IsFinished.bind {s : Search α} {f : α → Search β} (hs : s.IsFinished)
    (hf : ∀ log a, s = finished log a → (f a).IsFinished) : (s >>= f).IsFinished := by
  obtain ⟨first, a, hs⟩ := hs
  obtain ⟨rest, b, hrest⟩ := hf first a hs
  exact ⟨first ++ rest, b, bind_eq_finished_iff.mpr ⟨first, a, rest, hs, hrest, rfl⟩⟩

/-- A search that comes to an end within one limit does so within every greater one, in one way. -/
theorem IsFinished.exists_forall {search : Nat → Search α}
    (hmono : ∀ {limit limit' : Nat}, limit ≤ limit' → search limit ≤ search limit')
    {least : Nat} (hleast : (search least).IsFinished) :
    ∃ log result, ∀ limit, least ≤ limit → search limit = finished log result := by
  obtain ⟨log, result, hleast⟩ := hleast
  exact ⟨log, result, fun limit hlimit => hmono hlimit log result hleast⟩

end Search

/-! ## Calls of hooks -/

/-- Running the action calls the extraction behind it with the handle. -/
def Action.Calls (next : Extraction) (g : Handle) : Action → Prop
  | done _ => False
  | call h resume =>
    g = h ∨ ∃ log found?, next h = .finished log found? ∧ (resume found?).Calls next g
  | log _ rest => rest.Calls next g

/-- An action comes to an end if the extraction behind it does for all handles it is called with. -/
theorem Action.isFinished_run {next : Extraction} {action : Action}
    (hcalls : ∀ g, action.Calls next g → (next g).IsFinished) : (action.run next).IsFinished := by
  induction action with
  | done found => exact .pure found
  | call h resume ih =>
    refine .bind (hcalls h (.inl rfl)) fun log found hfound => ?_
    exact ih found fun g hg => hcalls g (.inr ⟨log, found, hfound, hg⟩)
  | log event rest ih => exact .bind ⟨[event], (), rfl⟩ fun _ _ _ => ih hcalls

namespace Hook

/-- Hooks that are given the first handle call the extraction behind them with the second. -/
def Reaches (base : Extraction) : List Hook → Handle → Handle → Prop
  | [], h, g => g = h
  | hook :: rest, h, g =>
    ∃ passed, (hook h).Calls (wrap rest base) passed ∧ Reaches base rest passed g

/-- Hooks come to an end if the extraction behind them does for all handles it is called with. -/
theorem isFinished_wrap {base : Extraction} {hooks : List Hook} {h : Handle}
    (hbase : ∀ g, Reaches base hooks h g → (base g).IsFinished) :
    (wrap hooks base h).IsFinished := by
  -- the rest of the hooks is the extraction behind the first one
  induction hooks generalizing h with
  | nil => exact hbase h rfl
  | cons hook rest ih =>
    refine Action.isFinished_run fun passed hpassed => ih fun g hg => ?_
    exact hbase g ⟨passed, hpassed, hg⟩

end Hook

/-- What is passed on: the handle itself, the one behind its pointers, or one to a map or an
object. -/
inductive Handle.Forwards (h : Handle) : Handle → Prop
  | same : Forwards h h
  | followed : Forwards h h.followPointers
  | map (entries : Entries) (restricted : Bool) : Forwards h ⟨some (.map entries), restricted⟩
  | object (o : Object Value) (restricted : Bool) : Forwards h ⟨some (.object o), restricted⟩

/-- Whatever extraction stands behind the hook, the hook calls it only with what it was given, with
what stands behind the pointers of that, and with maps and objects. What it finds is up to it. -/
def Hook.IsForwarding (hook : Hook) : Prop :=
  ∀ next h g, (hook h).Calls next g → h.Forwards g

/-- What is forwarded is not more nested. -/
theorem Handle.Forwards.nesting_le {h g : Handle} (hforwards : h.Forwards g) :
    g.nesting ≤ h.nesting := by
  cases hforwards with
  | same => exact Nat.le_refl _
  | followed => exact Nat.le_of_eq h.nesting_followPointers
  | map | object => exact Nat.zero_le _

/-- Hooks that forward call the extraction behind them with nothing that is more nested. -/
theorem Hook.nesting_le_of_reaches {base : Extraction} {hooks : List Hook}
    (hhooks : ∀ hook ∈ hooks, hook.IsForwarding) {h g : Handle}
    (hreaches : Reaches base hooks h g) : g.nesting ≤ h.nesting := by
  induction hooks generalizing h with
  | nil =>
    obtain rfl : g = h := hreaches
    exact Nat.le_refl _
  | cons hook rest ih =>
    obtain ⟨passed, hpassed, hrest⟩ := hreaches
    have hother : ∀ other ∈ rest, other.IsForwarding := fun other hmem =>
      hhooks other (List.mem_cons_of_mem hook hmem)
    calc
      g.nesting ≤ passed.nesting := ih hother hrest
      _ ≤ h.nesting := (hhooks hook List.mem_cons_self _ h passed hpassed).nesting_le

/-! ## Ready-made hooks -/

namespace Hook

/-- A hook that asks once, about the handle that it was given, forwards. -/
theorem isForwarding_of_eq_call {hook : Hook} {answer : Handle → Option Handle → Option Handle}
    (hhook : ∀ h, hook h = .call h fun found? => .done (answer h found?)) : hook.IsForwarding := by
  intro next h g hcalls
  rw [hhook] at hcalls
  obtain rfl | ⟨_, _, _, hresume⟩ := hcalls
  · exact .same
  · exact hresume.elim

theorem isForwarding_trace (id : String) : (trace id).IsForwarding := by
  rintro next h g (rfl | ⟨_, _, _, hresume⟩)
  · exact .same
  · exact hresume.elim

theorem isForwarding_constant (v : Value) : (constant v).IsForwarding :=
  fun _ _ _ hcalls => hcalls.elim

theorem isForwarding_followBefore : followBefore.IsForwarding := by
  rintro next h g (rfl | ⟨_, _, _, hresume⟩)
  · exact .followed
  · exact hresume.elim

theorem isForwarding_objectify (id : Nat) : (objectify id).IsForwarding := by
  intro next h g hcalls
  rw [objectify] at hcalls
  split at hcalls
  next entries _ =>
    -- it asks about the object, and about the map itself where nothing is found in the object
    obtain rfl | ⟨_, found?, _, hresume⟩ := hcalls
    · exact .object _ false
    cases found? with
    | some found => exact hresume.elim
    | none =>
      obtain rfl | ⟨_, _, _, hresume⟩ := hresume
      · exact .same
      · exact hresume.elim
  next =>
    obtain rfl | ⟨_, _, _, hresume⟩ := hcalls
    · exact .same
    · exact hresume.elim

theorem isForwarding_byTag (tag : String) : (byTag tag).IsForwarding := by
  intro next h g hcalls
  rw [byTag] at hcalls
  split at hcalls
  · obtain rfl | ⟨_, _, _, hresume⟩ := hcalls
    · exact .map _ false
    · exact hresume.elim
  · obtain rfl | ⟨_, _, _, hresume⟩ := hcalls
    · exact .followed
    · exact hresume.elim

/-- All ready-made hooks but one forward. -/
theorem forall_isForwarding (text : String) (v : Value) (id : Nat) :
    ∀ hook ∈ [trace text, prepend text, constant v, fallback v, reject, deny, allow, invalidate,
      followBefore, followAfter, objectify id, byTag text], hook.IsForwarding := by
  have hprepend : (prepend text).IsForwarding := isForwarding_of_eq_call fun _ => rfl
  have hfallback : (fallback v).IsForwarding := isForwarding_of_eq_call fun _ => rfl
  have hreject : reject.IsForwarding := isForwarding_of_eq_call fun _ => rfl
  have hdeny : deny.IsForwarding := isForwarding_of_eq_call fun _ => rfl
  have hallow : allow.IsForwarding := isForwarding_of_eq_call fun _ => rfl
  have hinvalidate : invalidate.IsForwarding := isForwarding_of_eq_call fun _ => rfl
  have hfollowAfter : followAfter.IsForwarding := isForwarding_of_eq_call fun _ => rfl
  simp only [List.forall_mem_cons]
  exact ⟨isForwarding_trace text, hprepend, isForwarding_constant v, hfallback, hreject, hdeny,
    hallow, hinvalidate, isForwarding_followBefore, hfollowAfter, isForwarding_objectify id,
    isForwarding_byTag text, List.forall_mem_nil _⟩

end Hook

/-! ## Steps -/

section Steps

variable {o : Options} {name : String}

theorem firstOpen_isFinished {search : Extraction} {handles : List Handle}
    (hsearch : ∀ h ∈ handles, (search h).IsFinished) (fallback : Option Handle) :
    (firstOpen search handles fallback).IsFinished := by
  induction handles generalizing fallback with
  | nil => exact .pure fallback
  | cons h rest ih =>
    have hrest : ∀ g ∈ rest, (search g).IsFinished := fun g hg =>
      hsearch g (List.mem_cons_of_mem h hg)
    refine .bind (hsearch h List.mem_cons_self) fun _ found? _ => ?_
    cases found? with
    | none => exact ih hrest fallback
    | some found =>
      dsimp only
      split
      · exact ih hrest (some found)
      · exact .pure _

/-- A step by name comes to an end if the searches in inline fields do. -/
theorem extractKey_succ_isFinished {limit : Nat} {h : Handle}
    (hinner : ∀ r, h.followPointers.value? = some (.record r) →
      ∀ g ∈ inlineHandles o h.followPointers r,
        (Hook.wrap o.hooks (extractKey o name limit) g).IsFinished) :
    (extractKey o name (limit + 1) h).IsFinished := by
  rw [extractKey]
  cases hvalue : h.followPointers.value? with
  | none => exact .pure none
  | some v =>
    cases v with
    | record r =>
      dsimp only
      rw [searchRecord]
      split
      · exact .pure _
      · exact firstOpen_isFinished (hinner r hvalue) _
    | _ => exact .pure _

/-- The inline fields of a record are less nested than a handle that leads to the record. -/
theorem nesting_lt_of_mem_inlineHandles_followPointers {h g : Handle} {r : Record Value}
    (hvalue : h.followPointers.value? = some (.record r))
    (hg : g ∈ inlineHandles o h.followPointers r) : g.nesting < h.nesting := by
  have hrecord : h.followPointers.nesting = (Value.record r).nesting := by
    rw [Handle.nesting, hvalue]
    rfl
  rw [← h.nesting_followPointers, hrecord]
  exact nesting_lt_of_mem_inlineHandles o hg

/-- A step is allowed more searches inside one another than its value is nested. -/
theorem Handle.nesting_lt_add_searchReserve (h : Handle) :
    h.nesting < h.nesting + 1 + searchReserve :=
  Nat.lt_add_right searchReserve (Nat.lt_succ_self h.nesting)

section Forwarding

variable (hhooks : ∀ hook ∈ o.hooks, hook.IsForwarding)
include hhooks

/-- A step by name comes to an end within every limit above the nesting of its value, if the hooks
around the searches in inline fields forward. -/
theorem extractKey_isFinished {limit : Nat} {h : Handle} (hlimit : h.nesting < limit) :
    (extractKey o name limit h).IsFinished := by
  induction limit generalizing h with
  | zero => exact absurd hlimit (Nat.not_lt_zero _)
  | succ limit ih =>
    refine extractKey_succ_isFinished fun r hvalue g hg => Hook.isFinished_wrap fun f hf => ih ?_
    -- what the hooks pass on is not more nested than the field, and the field less than the record
    calc
      f.nesting ≤ g.nesting := Hook.nesting_le_of_reaches hhooks hf
      _ < h.nesting := nesting_lt_of_mem_inlineHandles_followPointers hvalue hg
      _ ≤ limit := Nat.le_of_lt_succ hlimit

/-- The same for a step without the hooks around it. -/
theorem Step.extractWithin_isFinished (step : Step) {limit : Nat} {h : Handle}
    (hlimit : h.nesting < limit) : (step.extractWithin o limit h).IsFinished := by
  cases step with
  | key name => exact extractKey_isFinished hhooks hlimit
  | index position => exact .pure _

/-- The same for a step with the hooks around it. -/
theorem Step.extractHookedWithin_isFinished (step : Step) {limit : Nat} {h : Handle}
    (hlimit : h.nesting < limit) : (step.extractHookedWithin o limit h).IsFinished := by
  refine Hook.isFinished_wrap fun g hg => step.extractWithin_isFinished hhooks ?_
  exact Nat.lt_of_le_of_lt (Hook.nesting_le_of_reaches hhooks hg) hlimit

end Forwarding

/-- A step by name with the hooks around it, which begins at the first handle, comes to a record
with an inline field of the second handle. It searches the field unless it finds something open
before. -/
inductive Step.EntersField (o : Options) (name : String) (limit : Nat) (h i : Handle) : Prop
  | intro {g : Handle} {r : Record Value} :
      Hook.Reaches (extractKey o name limit) o.hooks h g →
        g.followPointers.value? = some (.record r) → i ∈ inlineHandles o g.followPointers r →
        EntersField o name limit h i

/-- If all hooks forward, each step comes to an end, with and without the hooks around it. It does
so within every limit above the nesting of its value, always in the same way, and each inline field
that it comes to search is less nested than what it began at. -/
theorem Step.terminates_of_isForwarding (hhooks : ∀ hook ∈ o.hooks, hook.IsForwarding)
    (step : Step) (h : Handle) :
    (∃ log found, step.extractHooked o h = .finished log found ∧
        ∀ limit, h.nesting < limit →
          step.extractHookedWithin o limit h = .finished log found) ∧
      (∃ log found, step.extract o h = .finished log found ∧
        ∀ limit, h.nesting < limit → step.extractWithin o limit h = .finished log found) ∧
      ∀ name limit i, EntersField o name limit h i → i.nesting < h.nesting := by
  refine ⟨?_, ?_, ?_⟩
  · have hleast := step.extractHookedWithin_isFinished hhooks (Nat.lt_succ_self h.nesting)
    obtain ⟨log, found, hfound⟩ := hleast.exists_forall (step.extractHookedWithin_le o · h)
    exact ⟨log, found, hfound _ h.nesting_lt_add_searchReserve, hfound⟩
  · have hleast := step.extractWithin_isFinished hhooks (Nat.lt_succ_self h.nesting)
    obtain ⟨log, found, hfound⟩ := hleast.exists_forall (step.extractWithin_le o · h)
    exact ⟨log, found, hfound _ h.nesting_lt_add_searchReserve, hfound⟩
  · rintro name limit i ⟨hreaches, hvalue, hi⟩
    exact Nat.lt_of_lt_of_le (nesting_lt_of_mem_inlineHandles_followPointers hvalue hi)
      (Hook.nesting_le_of_reaches hhooks hreaches)

/-- A log, an object in place of a map, and a default around a step by name. It comes to search the
embedded record, in which it finds the field. -/
theorem Step.terminates_of_isForwarding_of_embedded :
    let o : Options :=
      { hooks := [Hook.trace "t", Hook.objectify 0, Hook.fallback (.string "none")] }
    let inner : Value := .record ⟨"Inner", [⟨"x", [], true, false, .boolean true⟩]⟩
    let h : Handle :=
      .ofValue (.record ⟨"Outer", [⟨"i", [], true, true, .pointer (some inner)⟩]⟩)
    let i : Handle := .ofValue (.pointer (some inner))
    (∀ hook ∈ o.hooks, hook.IsForwarding) ∧
      (∃ log, ∀ limit, h.nesting < limit →
        (key "x").extractHookedWithin o limit h =
          .finished log (some (.ofValue (.boolean true)))) ∧
      EntersField o "x" 1 h i ∧ i.nesting < h.nesting := by
  intro o inner h i
  have hready := Hook.forall_isForwarding "t" (.string "none") 0
  simp only [List.forall_mem_cons] at hready
  obtain ⟨htrace, -, -, hfallback, -, -, -, -, -, -, hobjectify, -⟩ := hready
  have hhooks : ∀ hook ∈ o.hooks, hook.IsForwarding := by
    simpa only [o, List.forall_mem_cons] using
      ⟨htrace, hobjectify, hfallback, List.forall_mem_nil _⟩
  have henters : EntersField o "x" 1 h i :=
    .intro (g := h) ⟨h, .inl rfl, h, .inl rfl, h, .inl rfl, rfl⟩ rfl List.mem_cons_self
  obtain ⟨⟨log, found?, hown, hfound⟩, -, hless⟩ := terminates_of_isForwarding hhooks (key "x") h
  have hresult : ((key "x").extractHooked o h).result? = some (some (.ofValue (.boolean true))) :=
    rfl
  rw [hown] at hresult
  obtain rfl := Option.some.inj hresult
  exact ⟨hhooks, ⟨log, hfound⟩, henters, hless "x" 1 i henters⟩

end Steps

/-! ## Queries -/

/-- Several steps come to an end if each of them does, wherever it begins. -/
theorem extractAll_isFinished {take : Step → Extraction}
    (htake : ∀ step h, (take step h).IsFinished) (steps : List Step) (h : Handle) :
    (extractAll take steps h).IsFinished := by
  induction steps generalizing h with
  | nil => exact .pure _
  | cons step rest ih =>
    refine .bind (htake step h) fun _ found? _ => ?_
    cases found? with
    | none => exact .pure _
    | some found =>
      dsimp only
      split
      · exact .pure _
      · exact ih found

/-- A query has a result within the limits of its own steps if all its hooks forward. -/
theorem Query.extract_isFinished {q : Query} (hhooks : ∀ hook ∈ q.options.hooks, hook.IsForwarding)
    (target : Value) : (q.extract target).IsFinished := by
  rw [extract, extractBy_eq]
  refine .bind (extractAll_isFinished (fun step h => ?_) q.steps _) fun _ outcome _ =>
    .pure (q.answer outcome)
  exact step.extractHookedWithin_isFinished hhooks h.nesting_lt_add_searchReserve

/-! ## A search without end -/

/-- With a default that is a record, and another step from what a step found, a step by name may
search embedded nulls inside one another for ever. -/
theorem Step.extractHookedWithin_eq_unfinished (name typeName declared : String) (limit : Nat) :
    let endless : Value := .record ⟨typeName, [⟨declared, [], true, true, .null⟩]⟩
    (key name).extractHookedWithin { hooks := [Hook.twice, Hook.fallback endless] } limit
      (.ofValue .null) = .unfinished := by
  intro endless
  induction limit with
  | zero => rfl
  | succ limit ih =>
    let o : Options := { hooks := [Hook.twice, Hook.fallback endless] }
    let behind : Extraction := Hook.wrap [Hook.fallback endless] (extractKey o name (limit + 1))
    -- in null nothing is found, so that the first of the two steps finds the default
    have hdefault : behind (.ofValue .null) = pure (some (.ofValue endless)) := rfl
    -- the second one searches the only field of it by a step as this one, with a lower limit
    have hsearch : extractKey o name (limit + 1) (.ofValue endless) = .unfinished :=
      calc
        extractKey o name (limit + 1) (.ofValue endless)
        _ = firstOpen ((key name).extractHookedWithin o limit) [.ofValue .null] none := rfl
        _ = .unfinished := by rw [firstOpen, ih, Search.unfinished_bind]
    have hsecond : behind (.ofValue endless) = .unfinished :=
      calc
        behind (.ofValue endless)
        _ = (Hook.fallback endless (.ofValue endless)).run (extractKey o name (limit + 1)) := rfl
        _ = .unfinished := by rw [Hook.fallback, Action.run, hsearch, Search.unfinished_bind]
    calc
      (key name).extractHookedWithin o (limit + 1) (.ofValue .null)
      _ = (Hook.twice (.ofValue .null)).run behind := rfl
      _ = (Action.forward (.ofValue endless)).run behind := by
        rw [Hook.twice, Action.run, hdefault, pure_bind]
      _ = .unfinished := by rw [Action.forward, Action.run, hsecond, Search.unfinished_bind]

/-- The hook that extracts from what was extracted does not forward. -/
theorem Hook.not_isForwarding_twice : ¬twice.IsForwarding := by
  intro htwice
  let endless : Value := .record ⟨"T", [⟨"f", [], true, true, .null⟩]⟩
  let o : Options := { hooks := [twice, fallback endless] }
  have hhooks : ∀ hook ∈ o.hooks, hook.IsForwarding :=
    List.forall_mem_cons.mpr ⟨htwice, List.forall_mem_singleton.mpr <|
      isForwarding_of_eq_call fun _ => rfl⟩
  have hends : ((Step.key "x").extractHookedWithin o 1 (.ofValue .null)).IsFinished :=
    Step.extractHookedWithin_isFinished hhooks _ (Nat.lt_succ_self _)
  obtain ⟨_, _, hfinished⟩ := hends
  have hunfinished := Step.extractHookedWithin_eq_unfinished "x" "T" "f" 1
  cases hunfinished.symm.trans hfinished

end ValuePath
