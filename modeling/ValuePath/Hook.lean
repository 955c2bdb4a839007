import ValuePath.Search

/-!
# Hooks

A hook stands around an extraction. It is told the handle, may call the extraction behind it several
times and with whatever handles it likes, may write to the log, and says what was found. What it
does with a handle is an action, a tree that branches where the extraction behind the hook answers.

No branch of an action is infinite. Whatever is answered, an action makes finitely many calls and
then says what was found, so that only the extraction behind it can keep it from coming to an end. A
hook that loops over the answers is no action if there are answers that keep it calling without end.
But a search that comes to an end has only finitely many calls in it, and the hook that is cut off
behind the longest row of calls that it makes there does the same in this search. So in each search
that comes to an end, such a hook is stood for by a hook whose actions are finite in this sense.

* `Action.run` runs an action, given the extraction behind the hook.
* `Hook.wrap` puts a list of hooks around an extraction, the first one outermost.
-/

namespace ValuePath

/-- What a hook does with a handle: finitely many calls, whatever they find. -/
inductive Action where
  /-- Says what was found. -/
  | done (found : Option Handle)
  /-- Calls the extraction behind the hook, and goes on with what that found. -/
  | call (handle : Handle) (resume : Option Handle → Action)
  /-- Writes to the log, and goes on. -/
  | log (event : Event) (rest : Action)

namespace Action

/-- Runs an action. -/
def run (next : Extraction) : Action → Search (Option Handle)
  | done found => pure found
  | call handle resume => do (resume (← next handle)).run next
  | log event rest => do
    Search.tell event
    rest.run next

/-- Calls the extraction behind the hook, and says that the same was found. -/
def forward (handle : Handle) : Action :=
  call handle done

end Action

/-- A hook, given by what it does with each handle. -/
abbrev Hook := Handle → Action

/-- Hooks around an extraction, the first one outermost. -/
def Hook.wrap (hooks : List Hook) (base : Extraction) : Extraction :=
  hooks.foldr (fun hook next handle => (hook handle).run next) base

end ValuePath
