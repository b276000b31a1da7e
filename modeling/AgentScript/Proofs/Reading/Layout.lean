import AgentScript.Proofs.Reading.Ahead
import AgentScript.Proofs.Reading.Concatenation
import AgentScript.Proofs.Reading.Diagnosis
import Mathlib.Logic.Equiv.Fintype

/-!
Contract: scripts of the same tokens in another layout.

Owns:
- where the tokens of a script stand on new lines;
- a move of places that takes the tokens of one script to those of another, which have the same kinds
  and values;
- that two such scripts with line breaks at the same tokens are read alike: their programs differ in
  places only, and each diagnostic of the one is a diagnostic of the other at the corresponding token.

The move takes no two places to the same one. Therefore no diagnostic is taken for another one in the
one script and recorded in the other.
-/

set_option autoImplicit false

namespace AgentScript

/-- For each token, whether the token after it stands on a later line than the one it ends on. -/
def lineBreaks (ending : Lexed) : List Lexed → List Bool
  | [] => []
  | lexed :: rest =>
      decide (lexed.endLine < (rest.headD ending).token.position.line) :: lineBreaks ending rest

/-- For each token of a script, whether the token after it stands on a later line than the one it ends
on. The end of input is after the last one. -/
def Scan.lineBreaks (scan : Scan) : List Bool := AgentScript.lineBreaks scan.ending scan.tokens

/-- The program without the positions of its tokens. -/
def Program.unplaced (program : Program) : Program := program.moved fun _ => .null

/-- The same fault at the same token of two scripts. -/
def Diagnostic.Corresponds (tokens others : List Token) (diagnostic other : Diagnostic) : Prop :=
  other.fault = diagnostic.fault ∧ ∃ (index : Nat) (token image : Token),
    tokens[index]? = some token ∧ others[index]? = some image ∧
      diagnostic.position = token.position ∧ other.position = image.position

/-! ## A move from one script to the other -/

/-- Distinct places can be taken to as many distinct places by a move that identifies none. -/
theorem exists_injective_move {places images : List Position} (distinct : places.Nodup)
    (distinctImages : images.Nodup) (length : images.length = places.length) :
    ∃ move : Position → Position, Function.Injective move ∧ places.map move = images := by
  obtain ⟨move, moves⟩ := Equiv.Perm.exists_extending_pair
    (fun index : Fin places.length => places[index])
    (fun index : Fin places.length => images[index])
    (fun _ _ same => Fin.ext ((distinct.getElem_inj_iff).1 same))
    (fun _ _ same => Fin.ext ((distinctImages.getElem_inj_iff).1 same))
  refine ⟨move, move.injective, List.ext_getElem (by simp [length]) fun index inside _ => ?_⟩
  rw [List.getElem_map]
  exact moves ⟨index, by simpa using inside⟩

/-- Tokens of the same kinds and values differ in their places only. -/
theorem eq_map_moved {move : Position → Position} {tokens images : List Token}
    (same : images.map Token.bare = tokens.map Token.bare)
    (places : tokens.map (fun token => move token.position) = images.map Token.position) :
    images = tokens.map (Token.moved move) := by
  induction tokens generalizing images with
  | nil => simpa using same
  | cons token rest inductionHypothesis =>
      cases images with
      | nil => cases same
      | cons image images =>
          obtain ⟨sameToken, sameRest⟩ := List.cons.inj same
          obtain ⟨place, placesRest⟩ := List.cons.inj places
          rw [List.map_cons, ← inductionHypothesis sameRest placesRest]
          obtain ⟨kind, value, position⟩ := token
          obtain ⟨_, _, _⟩ := image
          cases sameToken
          cases place
          rfl

/-- The tokens of a script with the kinds and values of another one are those of the other, moved. -/
theorem exists_moved_tokens {source other : String}
    (tokens : (tokenize other).1.map Token.bare = (tokenize source).1.map Token.bare) :
    ∃ move : Position → Position, Function.Injective move ∧
      (tokenize other).1 = (tokenize source).1.map (Token.moved move) := by
  have length := congrArg List.length tokens
  obtain ⟨move, injective, places⟩ := exists_injective_move (nodup_positions source)
    (nodup_positions other) (by simpa using length)
  exact ⟨move, injective, eq_map_moved tokens (by rw [← places, List.map_map]; rfl)⟩

/-! ## The reading of both -/

/-- Tokens that are moved, with line breaks where they were, are images of the tokens. -/
theorem parallel_of_lineBreaks {move : Position → Position} {ending imageEnding : Lexed}
    {tokens images : List Lexed} {line imageLine : Nat}
    (same : (images ++ [imageEnding]).map Lexed.token =
      (tokens ++ [ending]).map fun lexed => lexed.token.moved move)
    (faultless : ∀ lexed ∈ tokens ++ [ending], lexed.fault? = none)
    (faultlessImages : ∀ lexed ∈ images ++ [imageEnding], lexed.fault? = none)
    (breaks : lineBreaks imageEnding images = lineBreaks ending tokens)
    (fresh : imageLine < (images.headD imageEnding).token.position.line ↔
      line < (tokens.headD ending).token.position.line) :
    Parallel move ending imageEnding line imageLine tokens images := by
  induction tokens generalizing images line imageLine with
  | nil =>
      cases images with
      | cons => cases breaks
      | nil =>
          have token := (List.cons.inj same).1
          exact .nil ⟨token, by rw [faultless ending (by simp), faultlessImages _ (by simp)]; rfl, fresh⟩
  | cons lexed rest inductionHypothesis =>
      cases images with
      | nil => cases breaks
      | cons image images =>
          -- the break after this token says whether the rest starts on a new line
          obtain ⟨token, sameRest⟩ := List.cons.inj same
          obtain ⟨sameBreak, breaksRest⟩ := List.cons.inj breaks
          refine .cons ⟨token, ?_, fresh⟩ (inductionHypothesis sameRest
            (fun lexed member => faultless lexed (List.mem_cons_of_mem _ member))
            (fun lexed member => faultlessImages lexed (List.mem_cons_of_mem _ member)) breaksRest
            (decide_eq_decide.1 sameBreak))
          rw [faultless lexed (by simp), faultlessImages image (by simp)]
          rfl

section

variable {source other : String} (clean : (tokenize source).2.entries = [])

include clean in
theorem fault?_eq_none_of_allTokens :
    ∀ lexed ∈ (Cursor.ofSource source).scan.tokens ++ [(Cursor.ofSource source).scan.ending],
      lexed.fault? = none := by
  intro lexed member
  rcases List.mem_append.1 member with inTokens | last
  · exact fault?_eq_none_of_tokenize clean lexed inTokens
  · rw [List.mem_singleton.1 last]
    exact (Cursor.scan_ending _).2.2

include clean in
/-- Nothing is recorded where the reading of a script without faults in its texts starts. -/
theorem sink_ofSource_eq_empty : (State.ofSource source).sink = Sink.empty := by
  have faults : ((Cursor.ofSource source).scan.tokens.take 2).filterMap Lexed.fault? = [] :=
    List.filterMap_eq_nil_iff.2 fun lexed member =>
      fault?_eq_none_of_tokenize clean lexed (List.mem_of_mem_take member)
  exact congrArg Sink.empty.pushAll faults

variable (otherClean : (tokenize other).2.entries = [])
  (breaks : (Cursor.ofSource other).scan.lineBreaks = (Cursor.ofSource source).scan.lineBreaks)

include clean otherClean breaks in
/-- The reading of the one script starts with the image of what the other starts with. -/
theorem mirrored_ofSource {move : Position → Position} (injective : Function.Injective move)
    (moved : (tokenize other).1 = (tokenize source).1.map (Token.moved move)) :
    (State.ofSource source).Mirrored (.exact injective) (State.ofSource other) where
  ahead := by
    refine parallel_of_lineBreaks ?_ (fault?_eq_none_of_allTokens clean)
      (fault?_eq_none_of_allTokens otherClean) breaks
      ⟨fun _ => line_pos source, fun _ => line_pos other⟩
    exact moved.trans List.map_map
  openBrackets := rfl
  nesting := rfl
  sink := by
    change (State.ofSource other).sink = (State.ofSource source).sink.moved move
    rw [sink_ofSource_eq_empty clean, sink_ofSource_eq_empty otherClean]
    rfl

include clean in
/-- What is wrong with a script without faults in its texts corresponds to what is wrong with the
same tokens at other places. -/
theorem corresponds_moved {move : Position → Position} {entry : Diagnostic}
    (member : entry ∈ (parse source).2.entries) :
    entry.Corresponds (tokenize source).1 ((tokenize source).1.map (Token.moved move))
      (entry.moved move) := by
  obtain ⟨token, inTokens, place, _⟩ := parse_aboutOneOf source entry member
  obtain ⟨index, found⟩ := List.mem_iff_getElem?.1 inTokens
  refine ⟨?_, index, token, token.moved move, found, by rw [List.getElem?_map, found]; rfl, place,
    congrArg move place⟩
  cases lexical : entry.fault.isLexical with
  | true =>
      -- this would be the fault of a token
      obtain ⟨lexed, inScan, fault⟩ := exists_lexed_of_isLexical member lexical
      rw [fault?_eq_none_of_tokenize clean lexed inScan] at fault
      cases fault
  | false =>
      obtain ⟨fault, position⟩ := entry
      cases fault with
      | unterminatedLiteral => cases lexical
      | _ => rfl

end

/-- Two scripts of tokens with the same kinds and values, with line breaks at the same tokens, hold
the same program up to places, and the same is wrong with both at the same tokens. -/
theorem parse_layout (source other : String) (clean : (tokenize source).2.entries = [])
    (otherClean : (tokenize other).2.entries = [])
    (tokens : (tokenize other).1.map Token.bare = (tokenize source).1.map Token.bare)
    (breaks : (Cursor.ofSource other).scan.lineBreaks = (Cursor.ofSource source).scan.lineBreaks) :
    (parse other).1.unplaced = (parse source).1.unplaced ∧
      List.Forall₂ (Diagnostic.Corresponds (tokenize source).1 (tokenize other).1)
        (parse source).2.entries (parse other).2.entries := by
  obtain ⟨move, injective, moved⟩ := exists_moved_tokens tokens
  have mirrored := mirrored_ofSource clean otherClean breaks injective moved
  obtain ⟨sameStatements, mirroredLast⟩ := Production.statementsWithin_mirrored
    (Production.mirrors_statement (Production.levelMirrors_withRoom maxNesting)) false
    mirrored.ahead.length_eq mirrored
  have sameProgram : (parse other).1 = (parse source).1.moved move := by
    rw [parse_eq other, sameStatements, ← mapTokensOfStmts_eq_map]
    rfl
  have sameEntries : (parse other).2.entries =
      (parse source).2.entries.map (Diagnostic.moved move) :=
    congrArg Sink.entries mirroredLast.sink
  constructor
  · rw [sameProgram, Program.unplaced, Program.moved_moved]
    rfl
  · rw [sameEntries, moved, List.forall₂_map_right_iff, List.forall₂_same]
    exact fun entry member => corresponds_moved clean member

/-- A string over two lines ends on the second of them, in both layouts. The name after it stands on
that line, which is wrong with both. -/
theorem parse_layout_string :
    (parse "x = \"a\nb\" c\ny = )").2.size = 2 ∧
      (parse "\nx=\"a\nb\"   c # end\n\n y = )").1.unplaced =
        (parse "x = \"a\nb\" c\ny = )").1.unplaced ∧
      List.Forall₂
        (Diagnostic.Corresponds (tokenize "x = \"a\nb\" c\ny = )").1
          (tokenize "\nx=\"a\nb\"   c # end\n\n y = )").1)
        (parse "x = \"a\nb\" c\ny = )").2.entries
        (parse "\nx=\"a\nb\"   c # end\n\n y = )").2.entries :=
  ⟨by decide +kernel, parse_layout _ _ (by decide +kernel) (by decide +kernel) (by decide +kernel)
    (by decide +kernel)⟩

end AgentScript
