import Mathlib.Data.List.Induction
import ValuePath.Proofs.Path.ErrorOrder
import ValuePath.Proofs.Path.Shift

/-!
# Calling a parser again

A parser that has given up at a token that begins no path can be called again, and goes on behind
that token. Each call begins anew: it gives the errors that it finds itself, and reads what is left
as if it stood alone, only further on. The one token outside of brackets at which a parser gives up
is a closing bracket, so that some closing brackets and a text behind them take one call each.

* `Parser.shift` moves a parser further on in a text, and `Parser.parse_shift` says that its next
  call gives the same there, and leaves the same.
* `Parser.after` and `Parser.resultAt` are one call after another.
* `Scanner.parse_rightBracket` is a call at a closing bracket, and `Scanner.after_rightBrackets` are
  the calls at a row of them.
* `Parser.resultAt_behindRightBrackets`: all calls.
-/

namespace ValuePath

/-! ## Further on in a text -/

/-- The same chain further on. -/
def Node.shift (size : Nat) : Node → Node
  | root pos => root (pos + size)
  | first pos step => first (pos + size) step
  | access parent pos step => access (parent.shift size) (pos + size) step

/-- The same result further on. -/
def shiftResult (size : Nat) :
    Except (List SyntaxError) (Option Node) → Except (List SyntaxError) (Option Node)
  | .ok node? => .ok (node?.map (Node.shift size))
  | .error errors => .error (errors.map (SyntaxError.shift size))

/-- The same parser further on. -/
def Parser.shift (size : Nat) (p : Parser) : Parser :=
  ⟨p.pending.map (Lexeme.shift size), p.endPos + size⟩

/-- A link further on stands on the same node further on. -/
theorem Link.under_shift (size : Nat) (below : Option Node) (link : Link) :
    (link.shift size).under (below.map (Node.shift size)) = (link.under below).shift size := by
  cases link with
  | root pos => rfl
  | step pos step => cases below <;> rfl

/-- The chain of links further on is their chain further on. -/
theorem Node.ofLinks?_shift (size : Nat) (links : List Link) :
    ofLinks? (links.map (Link.shift size)) = (ofLinks? links).map (Node.shift size) := by
  induction links using List.reverseRecOn with
  | nil => rfl
  | append_singleton links link ih =>
    rw [List.map_append, List.map_singleton, ofLinks?_append_singleton, ih, Link.under_shift,
      ofLinks?_append_singleton]
    rfl

/-- The result of a reading further on is its result further on, be it a chain or errors. -/
theorem Reading.result_shift (size : Nat) (r : Reading) :
    (r.shift size).result = shiftResult size r.result := by
  rw [result, result]
  by_cases herrors : r.errors = []
  · have hshifted : (r.shift size).errors = [] := List.map_eq_nil_iff.mpr herrors
    rw [if_pos herrors, if_pos hshifted]
    exact congrArg Except.ok (Node.ofLinks?_shift size r.links)
  · have hshifted : (r.shift size).errors ≠ [] := fun h => herrors (List.map_eq_nil_iff.mp h)
    rw [if_neg herrors, if_neg hshifted]
    rfl

/-- Further on a call gives the same and leaves the same. -/
theorem Parser.parse_shift (size : Nat) (p : Parser) :
    (p.shift size).parse = (shiftResult size p.parse.1, p.parse.2.shift size) := by
  obtain ⟨pending, endPos⟩ := p
  cases pending with
  | nil => rfl
  | cons head rest =>
    obtain ⟨pos, token⟩ := head
    have hhead (link : Link) :
        ((readSegments (endPos + size) (rest.map (Lexeme.shift size))).push
            (link.shift size) []).result =
          shiftResult size ((readSegments endPos rest).push link []).result := by
      rw [readSegments_shift, ← Reading.result_shift, Reading.shift_push, List.map_nil]
    have hsegments :
        (readSegments (endPos + size) ((⟨pos, token⟩ :: rest).map (Lexeme.shift size))).result =
          shiftResult size (readSegments endPos (⟨pos, token⟩ :: rest)).result := by
      rw [readSegments_shift, Reading.result_shift]
    -- at a token that begins no path the parser gives up, wherever that is
    cases token with
    | root => exact congrArg (·, _) (hhead (.root pos))
    | string name => exact congrArg (·, _) (hhead (.step pos (.key name)))
    | period => exact congrArg (·, _) hsegments
    | leftBracket => exact congrArg (·, _) hsegments
    | illegal | eof | int | rightBracket => rfl

/-- A parser further on in a text stands where the scanner does there. -/
theorem Scanner.parser_shift {s : Scanner} (h : s.IsMovable) (size : Nat) :
    (s.shift size).parser = s.parser.shift size := by
  rw [parser, lexemes_shift h, endPos_shift]
  rfl

/-! ## Further on by nothing -/

theorem Node.shift_zero (node : Node) : node.shift 0 = node := by
  induction node with
  | root pos => rfl
  | first pos step => rfl
  | access parent pos step ih => exact congrArg (access · pos step) ih

theorem shiftResult_zero (result : Except (List SyntaxError) (Option Node)) :
    shiftResult 0 result = result := by
  cases result with
  | ok node? =>
    have hid : Node.shift 0 = id := funext Node.shift_zero
    rw [shiftResult, hid, Option.map_id]
    rfl
  | error errors =>
    have hid : SyntaxError.shift 0 = id := rfl
    rw [shiftResult, hid, List.map_id]

/-! ## One call after another -/

namespace Parser

/-- The parser after some calls. -/
def after (p : Parser) (calls : Nat) : Parser :=
  (fun p => p.parse.2)^[calls] p

/-- What a call gives, of which the first one has the number zero. -/
def resultAt (p : Parser) (call : Nat) : Except (List SyntaxError) (Option Node) :=
  (p.after call).parse.1

/-- A parser over some closing brackets and a text behind them. -/
def behindRightBrackets (count : Nat) (s : String) : Parser :=
  ofString (String.ofList (List.replicate count ']') ++ s)

theorem after_add (p : Parser) (calls more : Nat) :
    p.after (calls + more) = (p.after calls).after more := by
  rw [after, Nat.add_comm, Function.iterate_add_apply]
  rfl

/-- At the end of the text a parser stays where it is. -/
theorem after_of_pending_eq_nil {p : Parser} (h : p.pending = []) (calls : Nat) :
    p.after calls = p :=
  Function.iterate_fixed (by rw [parse, h]) calls

end Parser

namespace Scanner

/-- A call at a closing bracket gives up there, and leaves what stands behind it. -/
theorem parse_rightBracket (cs : List Char) (pos : Nat) :
    (mk (']' :: cs) pos false).parser.parse =
      (.error [⟨pos, .unexpected [.root, .string, .leftBracket] .rightBracket⟩],
        (mk cs (pos + 1) false).parser) := by
  have hnext := next_rightBracket cs pos false
  rw [parser, lexemes_of_next (List.cons_ne_nil _ _) hnext, parser, ← endPos_of_next hnext]
  rfl

/-- Each of the calls at a row of closing brackets takes one of them. -/
theorem after_rightBrackets (count : Nat) (cs : List Char) (pos : Nat) :
    (mk (List.replicate count ']' ++ cs) pos false).parser.after count =
      (mk cs (pos + count) false).parser := by
  induction count generalizing pos with
  | zero => rfl
  | succ count ih =>
    -- the first call takes the first bracket, and the others find one bracket less
    have hfirst : (mk (List.replicate (count + 1) ']' ++ cs) pos false).parser.parse.2 =
        (mk (List.replicate count ']' ++ cs) (pos + 1) false).parser :=
      congrArg Prod.snd (parse_rightBracket (List.replicate count ']' ++ cs) pos)
    rw [Parser.after, Function.iterate_succ_apply, hfirst, Nat.add_comm count, ← Nat.add_assoc]
    exact ih (pos + 1)

section RightBrackets

variable (k : Nat) (cs : List Char)

/-- While there is a closing bracket, a call gives one error, at the bracket. -/
theorem resultAt_of_lt {i : Nat} (hi : i < k) :
    (mk (List.replicate k ']' ++ cs) 1 false).parser.resultAt i =
      .error [⟨i + 1, .unexpected [.root, .string, .leftBracket] .rightBracket⟩] := by
  obtain ⟨more, rfl⟩ := Nat.exists_eq_add_of_lt hi
  rw [Nat.add_assoc, ← List.replicate_append_replicate, List.append_assoc, Parser.resultAt,
    after_rightBrackets, List.replicate_succ, List.cons_append, parse_rightBracket, Nat.add_comm 1]

/-- Behind the closing brackets a call gives what it gives at the beginning of a text, further on by
their number. -/
theorem resultAt_self (hroot : k ≠ 0 → cs.head? ≠ some '$') :
    (mk (List.replicate k ']' ++ cs) 1 false).parser.resultAt k =
      shiftResult k (mk cs 1 false).parser.parse.1 := by
  rw [Parser.resultAt, after_rightBrackets]
  by_cases hk : k = 0
  · -- a root marker has its place at the beginning of a text, but not further on
    rw [hk, shiftResult_zero]
  · have hmovable : (mk cs 1 false).IsMovable := ⟨Nat.one_pos, fun _ => hroot hk⟩
    have hthere : mk cs (1 + k) false = (mk cs 1 false).shift k := rfl
    rw [hthere, parser_shift hmovable, Parser.parse_shift]

/-- After that a call finds the end of the text. -/
theorem resultAt_of_gt (hright : cs.head? ≠ some ']') {i : Nat} (hi : k < i) :
    (mk (List.replicate k ']' ++ cs) 1 false).parser.resultAt i = .ok none := by
  obtain ⟨more, rfl⟩ := Nat.exists_eq_add_of_lt hi
  -- the call behind the brackets has read to the end of the text
  have hpending := pending_parse_eq_nil hright (1 + k)
  have hlast : (mk (List.replicate k ']' ++ cs) 1 false).parser.after (k + 1) =
      (mk cs (1 + k) false).parser.parse.2 := by
    rw [Parser.after_add, after_rightBrackets]
    rfl
  rw [Parser.resultAt, Nat.add_right_comm, Parser.after_add, hlast,
    Parser.after_of_pending_eq_nil hpending, Parser.parse, hpending]

/-- A call that gives errors comes to a closing bracket or to what stands behind all of them. In the
first case the errors are at this bracket, and in the other case behind all brackets. -/
theorem pos_of_resultAt (hright : cs.head? ≠ some ']') (hroot : k ≠ 0 → cs.head? ≠ some '$')
    {i : Nat} {errors : List SyntaxError}
    (h : (mk (List.replicate k ']' ++ cs) 1 false).parser.resultAt i = .error errors) :
    i ≤ k ∧ ∀ e ∈ errors, i + 1 ≤ e.pos ∧ (i < k → e.pos = i + 1) := by
  rcases Nat.lt_trichotomy i k with hi | rfl | hi
  · rw [resultAt_of_lt k cs hi] at h
    obtain rfl := Except.error.inj h
    refine ⟨Nat.le_of_lt hi, List.forall_mem_singleton.mpr ?_⟩
    exact ⟨Nat.le_refl _, fun _ => rfl⟩
  · rw [resultAt_self i cs hroot] at h
    refine ⟨Nat.le_refl i, fun e he => ⟨?_, fun hlt => absurd hlt (Nat.lt_irrefl i)⟩⟩
    cases hparse : (mk cs 1 false).parser.parse.1 with
    | ok node? =>
      rw [hparse] at h
      cases h
    | error alone =>
      rw [hparse] at h
      obtain rfl := Except.error.inj h
      obtain ⟨e', he', rfl⟩ := List.mem_map.mp he
      have hfirst : 1 ≤ e'.pos := ((Parser.inTextOrder_of_parse hparse).2 e' he').1
      show i + 1 ≤ e'.pos + i
      omega
  · rw [resultAt_of_gt k cs hright hi] at h
    cases h

end RightBrackets

end Scanner

/-- A parser over `k` closing brackets and a text that begins with none, and with no root marker if
there are brackets before it. Each of the first `k` calls gives one error, at its own bracket. The
next call gives what the first call gives for the text alone, further on by `k`, and every later one
finds that there is no path. No error is given by two calls. -/
theorem Parser.resultAt_behindRightBrackets (k : Nat) (s : String)
    (hright : s.toList.head? ≠ some ']') (hroot : k ≠ 0 → s.toList.head? ≠ some '$') :
    (∀ i < k, (behindRightBrackets k s).resultAt i =
        .error [⟨i + 1, .unexpected [.root, .string, .leftBracket] .rightBracket⟩]) ∧
      (behindRightBrackets k s).resultAt k = shiftResult k (ofString s).parse.1 ∧
      (∀ i, k < i → (behindRightBrackets k s).resultAt i = .ok none) ∧
      ∀ i j errors errors', i ≠ j → (behindRightBrackets k s).resultAt i = .error errors →
        (behindRightBrackets k s).resultAt j = .error errors' → ∀ e ∈ errors, e ∉ errors' := by
  have hp : behindRightBrackets k s =
      (Scanner.mk (List.replicate k ']' ++ s.toList) 1 false).parser := by
    show (Scanner.ofString _).parser = _
    rw [Scanner.ofString, String.toList_append, String.toList_ofList]
  rw [hp]
  refine ⟨fun i => Scanner.resultAt_of_lt k s.toList, Scanner.resultAt_self k s.toList hroot,
    fun i => Scanner.resultAt_of_gt k s.toList hright, ?_⟩
  intro i j errors errors' hne herrors herrors' e he he'
  obtain ⟨hi, hplaces⟩ := Scanner.pos_of_resultAt k s.toList hright hroot herrors
  obtain ⟨hj, hplaces'⟩ := Scanner.pos_of_resultAt k s.toList hright hroot herrors'
  obtain ⟨hle, heq⟩ := hplaces e he
  obtain ⟨hle', heq'⟩ := hplaces' e he'
  -- the earlier of the two calls is at a bracket, and the later one behind it
  rcases Nat.lt_or_gt_of_ne hne with hlt | hgt
  · have hpos := heq (Nat.lt_of_lt_of_le hlt hj)
    omega
  · have hpos := heq' (Nat.lt_of_lt_of_le hgt hi)
    omega

/-- Two closing brackets, and behind them a text with two errors of its own. -/
theorem Parser.resultAt_behindRightBrackets_of_two :
    let s := "a[x"
    let p := behindRightBrackets 2 s
    s.toList.head? ≠ some ']' ∧ s.toList.head? ≠ some '$' ∧
      p.resultAt 1 = .error [⟨2, .unexpected [.root, .string, .leftBracket] .rightBracket⟩] ∧
      p.resultAt 2 = .error [⟨5, .unexpected [.string, .int] .illegal⟩,
        ⟨6, .unexpected [.rightBracket] .eof⟩] ∧
      p.resultAt 3 = .ok none := by
  intro s p
  have hright : s.toList.head? ≠ some ']' := by decide
  have hroot : s.toList.head? ≠ some '$' := by decide
  obtain ⟨hbefore, hself, hafter, -⟩ := resultAt_behindRightBrackets 2 s hright fun _ => hroot
  have ha : (Scanner.ofString "a[x").next = (⟨1, .string "a"⟩, ⟨['[', 'x'], 2, false⟩) := rfl
  have hx : (Scanner.mk ['x'] 3 true).next = (⟨3, .illegal "x"⟩, ⟨[], 4, true⟩) := rfl
  have hend : (Scanner.mk [] 4 true).next = (⟨4, .eof⟩, ⟨[], 4, true⟩) := rfl
  have hparse : (ofString s).parse.1 = .error [⟨3, .unexpected [.string, .int] .illegal⟩,
      ⟨4, .unexpected [.rightBracket] .eof⟩] := by
    rw [Parser.ofString_eq_parser, Scanner.parse_parser_string ha,
      Scanner.reading_leftBracket (Scanner.next_leftBracket _ _) hx hend,
      Scanner.reading_of_rest_eq_nil rfl]
    rfl
  rw [hparse] at hself
  exact ⟨hright, hroot, hbefore 1 (by decide), hself, hafter 3 (by decide)⟩

end ValuePath
