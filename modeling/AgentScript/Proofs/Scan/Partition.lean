import AgentScript.Proofs.Scan.Progress
import Mathlib.Data.List.Induction

/-!
Contract: the tokens of a text are slices of it, at exact places, with only gaps between them.

Owns:
- the place after a text, counted from its line feeds alone;
- the texts that may stand between tokens;
- partitions of a text into gaps and token slices;
- what any sequence of calls does to a scanner, and what its tokens are once the text is used up.
-/

set_option autoImplicit false

namespace AgentScript

/-- The place after a text: one line for each line feed, one column for each character since. -/
def placeAfter (text : List Char) : Position where
  line := 1 + text.count '\n'
  column := 1 + (text.reverse.takeWhile fun char => char ≠ '\n').length

theorem start_afterText (text : List Char) : Position.start.afterText text = placeAfter text := by
  induction text using List.reverseRecOn with
  | nil => rfl
  | append_singleton text char inductionHypothesis =>
      rw [Position.afterText_append, inductionHypothesis, Position.afterText_cons,
        Position.afterText_nil]
      by_cases feed : char = '\n'
      · simp [Position.after, placeAfter, feed, List.count_append, Nat.add_assoc]
      · simp [Position.after, placeAfter, feed, List.count_append, Nat.add_assoc,
          Nat.add_comm 1]

/-- The texts that may stand before `rest` without belonging to a token: blanks, and comments that
run to the end of their line. -/
inductive IsGap (rest : List Char) : List Char → Prop where
  | nil : IsGap rest []
  | blank {char : Char} {gap : List Char} :
      isBlank char = true → IsGap rest gap → IsGap rest (char :: gap)
  | comment {text gap : List Char} :
      '\n' ∉ text → IsGap rest gap → IsGap rest ('#' :: (text ++ '\n' :: gap))
  | lastComment {text : List Char} : '\n' ∉ text → rest = [] → IsGap rest ('#' :: text)

/-- The rest of a comment, and the gap that goes on after it. -/
private theorem skipGapFrom_comment (position : Position) (text : List Char) :
    ∃ comment, '\n' ∉ comment ∧
      ((text = comment ∧ Cursor.skipGapFrom true position text = ⟨position.afterText text, []⟩) ∨
        ∃ more, text = comment ++ '\n' :: more ∧
          Cursor.skipGapFrom true position text =
            Cursor.skipGapFrom false (position.afterText (comment ++ ['\n'])) more) := by
  induction text generalizing position with
  | nil => exact ⟨[], by simp, .inl ⟨rfl, rfl⟩⟩
  | cons char rest inductionHypothesis =>
      by_cases feed : char = '\n'
      · subst feed
        exact ⟨[], by simp, .inr ⟨rest, rfl, by simp [Cursor.skipGapFrom, isBlank,
          Position.afterText]⟩⟩
      · have goesOn : Cursor.skipGapFrom true position (char :: rest) =
            Cursor.skipGapFrom true (position.after char) rest := by
          simp [Cursor.skipGapFrom, feed]
        obtain ⟨comment, noFeed, cases⟩ := inductionHypothesis (position.after char)
        have noFeedBefore : '\n' ∉ char :: comment := by
          simp [noFeed, Ne.symm feed]
        refine ⟨char :: comment, noFeedBefore, ?_⟩
        rw [goesOn]
        rcases cases with ⟨whole, ended⟩ | ⟨more, split, after⟩
        · exact .inl ⟨congrArg (char :: ·) whole, ended⟩
        · exact .inr ⟨more, congrArg (char :: ·) split, after⟩

/-- What is passed before a token is a gap, and no gap goes on after it. -/
theorem Cursor.skipGap_split (cursor : Cursor) :
    ∃ gap, cursor.rest = gap ++ cursor.skipGap.rest ∧ IsGap cursor.skipGap.rest gap ∧
      cursor.skipGap.position = cursor.position.afterText gap := by
  have general : ∀ (bound : Nat) (text : List Char) (position : Position), text.length ≤ bound →
      ∃ gap, text = gap ++ (skipGapFrom false position text).rest ∧
        IsGap (skipGapFrom false position text).rest gap ∧
        (skipGapFrom false position text).position = position.afterText gap := by
    intro bound
    induction bound with
    | zero =>
        intro text position short
        obtain rfl := List.length_eq_zero_iff.1 (Nat.le_zero.1 short)
        exact ⟨[], rfl, .nil, rfl⟩
    | succ bound inductionHypothesis =>
        intro text position short
        cases text with
        | nil => exact ⟨[], rfl, .nil, rfl⟩
        | cons char rest =>
            rw [List.length_cons] at short
            by_cases blank : isBlank char = true
            · obtain ⟨gap, split, isGap, place⟩ :=
                inductionHypothesis rest (position.after char) (by omega)
              simp only [skipGapFrom, blank, Bool.false_and, Bool.false_eq_true, ↓reduceIte]
              exact ⟨char :: gap, congrArg (char :: ·) split, .blank blank isGap, place⟩
            · by_cases sign : char = '#'
              · subst sign
                have enters : skipGapFrom false position ('#' :: rest) =
                    skipGapFrom true (position.after '#') rest := by
                  simp [skipGapFrom, isBlank]
                rw [enters]
                obtain ⟨comment, noFeed, ⟨whole, ended⟩ | ⟨more, split, after⟩⟩ :=
                  skipGapFrom_comment (position.after '#') rest
                · rw [ended]
                  exact ⟨'#' :: rest, by simp, .lastComment (whole ▸ noFeed) rfl, rfl⟩
                · have shorter := congrArg List.length split
                  simp only [List.length_append, List.length_cons] at shorter
                  obtain ⟨gap, splitMore, isGap, place⟩ := inductionHypothesis more
                    ((position.after '#').afterText (comment ++ ['\n'])) (by omega)
                  rw [after]
                  refine ⟨'#' :: (comment ++ '\n' :: gap), ?_, .comment noFeed isGap, ?_⟩
                  · rw [split]
                    conv => lhs; rw [splitMore]
                    simp
                  · rw [place, ← Position.afterText_append, List.append_assoc]
                    rfl
              · simp only [skipGapFrom, blank, sign, Bool.false_and, Bool.false_eq_true, ↓reduceIte]
                exact ⟨[], rfl, .nil, rfl⟩
  exact general cursor.rest.length cursor.rest cursor.position (Nat.le_refl _)

/-- A text cut into gaps and token slices, the end of input last. The text before it decides where
its tokens stand. -/
inductive Partitions : List Char → List Char → List Token → Prop where
  | ending {before gap : List Char} :
      IsGap [] gap → Partitions before gap [⟨.endOfInput, "", placeAfter (before ++ gap)⟩]
  | token {before gap slice rest : List Char} {token : Token} {tokens : List Token} :
      IsGap (slice ++ rest) gap → slice ≠ [] → token.kind ≠ .endOfInput →
      token.position = placeAfter (before ++ gap) →
      (token.kind ≠ .string → token.kind ≠ .template → token.value = String.ofList slice) →
      Partitions (before ++ gap ++ slice) rest tokens →
      Partitions before (gap ++ slice ++ rest) (token :: tokens)

namespace Cursor

/-- One token takes a gap and its slice. -/
theorem next_split {cursor : Cursor} (token : cursor.next.1.token.kind ≠ .endOfInput) :
    ∃ gap slice, cursor.rest = gap ++ slice ++ cursor.next.2.rest ∧
      IsGap (slice ++ cursor.next.2.rest) gap ∧ slice ≠ [] ∧
      cursor.next.1.token.position = cursor.position.afterText gap ∧
      cursor.next.2.position = cursor.position.afterText (gap ++ slice) ∧
      (cursor.next.1.token.kind ≠ .string → cursor.next.1.token.kind ≠ .template →
        cursor.next.1.token.value = String.ofList slice) := by
  obtain ⟨gap, split, isGap, place⟩ := cursor.skipGap_split
  cases ahead : cursor.skipGap.rest with
  | nil => exact absurd ((next_kind_eq_endOfInput_iff cursor).2 ahead) token
  | cons first rest =>
      have takes := Lexeme.read_takes first rest
      rw [next_of_cons ahead]
      rw [ahead] at split isGap
      have whole : first :: rest =
          (first :: rest.take (Lexeme.read first rest).more) ++
            rest.drop (Lexeme.read first rest).more := by simp
      refine ⟨gap, first :: rest.take (Lexeme.read first rest).more, ?_, ?_, by simp, place, ?_, ?_⟩
      · rw [List.append_assoc, ← whole]
        exact split
      · rw [← whole]
        exact isGap
      · rw [Position.afterText_append, place]
      · intro noString noTemplate
        exact congrArg String.ofList (takes.value_eq noString noTemplate)

/-- The tokens ahead partition the text ahead. -/
theorem scan_partitions (cursor : Cursor) (before : List Char)
    (place : cursor.position = placeAfter before) :
    Partitions before cursor.rest cursor.scan.allTokens := by
  induction cursor using scan_induction generalizing before with
  | ending cursor ended =>
      have onlyGap := (next_kind_eq_endOfInput_iff cursor).1 ended
      obtain ⟨gap, split, isGap, placeGap⟩ := cursor.skipGap_split
      rw [onlyGap, List.append_nil] at split
      rw [onlyGap] at isGap
      rw [scan_of_end ended, next_of_end onlyGap, placeGap, place, ← start_afterText,
        ← Position.afterText_append, start_afterText, split]
      exact .ending isGap
  | token cursor token inductionHypothesis =>
      obtain ⟨gap, slice, split, isGap, nonempty, placeToken, placeNext, value⟩ := next_split token
      rw [place, ← start_afterText, ← Position.afterText_append, start_afterText]
        at placeToken placeNext
      have tail := inductionHypothesis (before ++ (gap ++ slice)) placeNext
      rw [← List.append_assoc] at tail
      rw [scan_of_token token, split]
      exact .token isGap nonempty token placeToken value tail

theorem scan_ending (cursor : Cursor) :
    cursor.scan.ending.token.kind = .endOfInput ∧ cursor.scan.ending.token.value = "" ∧
      cursor.scan.ending.fault? = none := by
  induction cursor using scan_induction with
  | ending cursor ended =>
      rw [scan_of_end ended, next_of_end ((next_kind_eq_endOfInput_iff cursor).1 ended)]
      exact ⟨rfl, rfl, rfl⟩
  | token cursor token inductionHypothesis =>
      rw [scan_of_token token]
      exact inductionHypothesis

theorem scan_tokens_kind_ne (cursor : Cursor) :
    ∀ lexed ∈ cursor.scan.tokens, lexed.token.kind ≠ .endOfInput := by
  induction cursor using scan_induction with
  | ending cursor ended => simp [scan_of_end ended]
  | token cursor token inductionHypothesis =>
      rw [scan_of_token token]
      intro lexed member
      rcases List.mem_cons.1 member with rfl | inRest
      · exact token
      · exact inductionHypothesis lexed inRest

/-- Past the last token, nothing moves any more. -/
theorem next_next_of_end {cursor : Cursor} (ended : cursor.next.1.token.kind = .endOfInput) :
    cursor.next.2.next = cursor.next := by
  have onlyGap := (next_kind_eq_endOfInput_iff cursor).1 ended
  have again : cursor.skipGap.skipGap = cursor.skipGap := by
    conv => lhs; rw [skipGap, onlyGap, skipGapFrom]
    rw [← onlyGap]
  have onlyGapAgain : cursor.skipGap.skipGap.rest = [] := by rw [again, onlyGap]
  rw [next_of_end onlyGap, next_of_end onlyGapAgain, again]

end Cursor

/-! ## Calls on one scanner -/

/-- The calls that move a scanner. -/
inductive ScannerCall where
  | advance
  | next
deriving DecidableEq, Repr

namespace Scanner

def call (scanner : Scanner) : ScannerCall → Scanner
  | .advance => scanner.advance.2
  | .next => scanner.next.2

/-- A scanner after calls one after the other. -/
def run (scanner : Scanner) (calls : List ScannerCall) : Scanner := calls.foldl call scanner

/-- The tokens that so many calls for the next one give, and the scanner after them. -/
def nextTokens : Nat → Scanner → List Token × Scanner
  | 0, scanner => ([], scanner)
  | count + 1, scanner =>
      let (token, after) := scanner.next
      let (tokens, final) := nextTokens count after
      (token :: tokens, final)

theorem nextTokens_succ (count : Nat) (scanner : Scanner) :
    scanner.nextTokens (count + 1) =
      (scanner.next.1 :: (scanner.next.2.nextTokens count).1,
        (scanner.next.2.nextTokens count).2) :=
  rfl

theorem nextTokens_add (first second : Nat) (scanner : Scanner) :
    scanner.nextTokens (first + second) =
      ((scanner.nextTokens first).1 ++ ((scanner.nextTokens first).2.nextTokens second).1,
        ((scanner.nextTokens first).2.nextTokens second).2) := by
  induction first generalizing scanner with
  | zero => simp [nextTokens]
  | succ first inductionHypothesis =>
      rw [Nat.add_right_comm, nextTokens_succ, inductionHypothesis, nextTokens_succ]
      rfl

/-- What a call passes over, and that the place moves with it. -/
theorem call_split (scanner : Scanner) (kind : ScannerCall) :
    ∃ taken, scanner.cursor.rest = taken ++ (scanner.call kind).cursor.rest ∧
      (scanner.call kind).cursor.position = scanner.cursor.position.afterText taken := by
  cases kind with
  | advance =>
      obtain ⟨⟨position, rest⟩, sink⟩ := scanner
      cases rest with
      | nil => exact ⟨[], rfl, rfl⟩
      | cons char rest => exact ⟨[char], rfl, rfl⟩
  | next =>
      by_cases token : scanner.cursor.next.1.token.kind = .endOfInput
      · have onlyGap := (Cursor.next_kind_eq_endOfInput_iff scanner.cursor).1 token
        obtain ⟨gap, split, _, place⟩ := scanner.cursor.skipGap_split
        have moved : (scanner.call .next).cursor = scanner.cursor.skipGap := by
          rw [call, Scanner.next, Cursor.next_of_end onlyGap]
        exact ⟨gap, by rw [moved]; exact split, by rw [moved]; exact place⟩
      · obtain ⟨gap, slice, split, _, _, _, place, _⟩ := Cursor.next_split token
        exact ⟨gap ++ slice, split, place⟩

/-- However a scanner is moved, its place is that of the text it has passed. -/
theorem run_split (scanner : Scanner) (calls : List ScannerCall) (before : List Char)
    (place : scanner.position = placeAfter before) :
    ∃ taken, scanner.cursor.rest = taken ++ (scanner.run calls).cursor.rest ∧
      (scanner.run calls).position = placeAfter (before ++ taken) := by
  induction calls generalizing scanner before with
  | nil => exact ⟨[], rfl, by rw [List.append_nil]; exact place⟩
  | cons kind calls inductionHypothesis =>
      obtain ⟨taken, split, moved⟩ := scanner.call_split kind
      have placeNext : (scanner.call kind).position = placeAfter (before ++ taken) := by
        rw [← start_afterText, Position.afterText_append, start_afterText, ← place]
        exact moved
      obtain ⟨more, splitMore, placeMore⟩ := inductionHypothesis _ _ placeNext
      refine ⟨taken ++ more, ?_, ?_⟩
      · rw [split, splitMore, List.append_assoc]
        rfl
      · rw [← List.append_assoc]
        exact placeMore

/-- As many calls as there are tokens give them all, with their faults in the sink; every call after
that gives the end of input again and changes nothing. -/
theorem nextTokens_scan (scanner : Scanner) :
    ∃ final, scanner.nextTokens scanner.cursor.scan.allTokens.length =
        (scanner.cursor.scan.allTokens, final) ∧
      final.sink = scanner.sink.pushAll scanner.cursor.scan.faults ∧
      final.next = (scanner.cursor.scan.ending.token, final) := by
  obtain ⟨cursor, sink⟩ := scanner
  induction cursor using Cursor.scan_induction generalizing sink with
  | ending cursor ended =>
      have onlyGap := (Cursor.next_kind_eq_endOfInput_iff cursor).1 ended
      have again := Cursor.next_next_of_end ended
      refine ⟨⟨cursor.next.2, sink⟩, ?_, ?_, ?_⟩
      · simp only [Cursor.scan_of_end ended, Scan.allTokens, List.nil_append, List.map_cons,
          List.map_nil, List.length_cons, List.length_nil, nextTokens, Scanner.next]
        rw [Cursor.next_of_end onlyGap]
        rfl
      · rw [Cursor.scan_of_end ended]
        rfl
      · simp only [Scanner.next]
        rw [again, Cursor.scan_of_end ended, Cursor.next_of_end onlyGap]
        rfl
  | token cursor token inductionHypothesis =>
      obtain ⟨final, tokens, faults, stays⟩ :=
        inductionHypothesis (sink.pushOption cursor.next.1.fault?)
      refine ⟨final, ?_, ?_, ?_⟩
      · simp only [Cursor.scan_of_token token, Scan.allTokens, List.cons_append, List.map_cons,
          List.length_cons, nextTokens, Scanner.next] at tokens ⊢
        rw [tokens]
      · rw [faults, Cursor.scan_of_token token]
        cases fault : cursor.next.1.fault? <;>
          simp [Scan.faults, fault, Sink.pushAll, Sink.pushOption]
      · rw [Cursor.scan_of_token token]
        exact stays

theorem nextTokens_of_next {scanner : Scanner} {token : Token}
    (stays : scanner.next = (token, scanner)) (count : Nat) :
    scanner.nextTokens count = (List.replicate count token, scanner) := by
  induction count with
  | zero => rfl
  | succ count inductionHypothesis =>
      rw [nextTokens_succ, stays, inductionHypothesis, List.replicate_succ]

end Scanner

/-- The tokens of a script partition it; they are what a scanner gives call by call, and then the
same end of input for ever; and however a scanner is moved, it stands after the text it has passed.
-/
theorem tokenize_partitions (source : String) :
    Partitions [] source.toList (tokenize source).1 ∧
    (∃ tokens ending, (tokenize source).1 = tokens ++ [ending] ∧
      ending.kind = .endOfInput ∧ ending.value = "" ∧
      (∀ token ∈ tokens, token.kind ≠ .endOfInput) ∧
      ∃ final : Scanner, final.sink = (tokenize source).2 ∧
        ∀ more, (Scanner.ofSource source).nextTokens (tokens.length + 1 + more) =
          (tokens ++ [ending] ++ List.replicate more ending, final)) ∧
    ∀ calls, ∃ consumed,
      source.toList = consumed ++ ((Scanner.ofSource source).run calls).cursor.rest ∧
      ((Scanner.ofSource source).run calls).position = placeAfter consumed := by
  refine ⟨Cursor.scan_partitions (Cursor.ofSource source) [] rfl, ?_, fun calls => ?_⟩
  · obtain ⟨kind, value, _⟩ := Cursor.scan_ending (Cursor.ofSource source)
    obtain ⟨final, drained, faults, stays⟩ := Scanner.nextTokens_scan (Scanner.ofSource source)
    refine ⟨(Cursor.ofSource source).scan.tokens.map Lexed.token,
      (Cursor.ofSource source).scan.ending.token, ?_, kind, value, ?_, final, faults,
      fun more => ?_⟩
    · simp [tokenize, Scan.allTokens]
    · intro token member
      obtain ⟨lexed, inTokens, rfl⟩ := List.mem_map.1 member
      exact Cursor.scan_tokens_kind_ne _ lexed inTokens
    · have count : (Cursor.ofSource source).scan.allTokens.length =
          ((Cursor.ofSource source).scan.tokens.map Lexed.token).length + 1 := by
        simp [Scan.allTokens]
      have split := Scanner.nextTokens_add (Cursor.ofSource source).scan.allTokens.length more
        (Scanner.ofSource source)
      rw [← count, split]
      have drained' : (Scanner.ofSource source).nextTokens
          (Cursor.ofSource source).scan.allTokens.length = _ := drained
      rw [drained', Scanner.nextTokens_of_next stays]
      simp [Scan.allTokens, Scanner.ofSource]
  · obtain ⟨taken, split, place⟩ := Scanner.run_split (Scanner.ofSource source) calls [] rfl
    exact ⟨taken, split, place⟩

end AgentScript
