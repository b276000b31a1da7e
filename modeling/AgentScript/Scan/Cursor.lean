import AgentScript.Diagnostic.Sink
import AgentScript.Scan.Lexeme
import AgentScript.Token.Basic

/-!
Contract: a place in a script with the text ahead of it, and the tokens from there on.

Owns:
- passing over the gap before a token: blanks, and comments to the end of their line;
- the next token with its place, the line it ends on, and its fault;
- all tokens up to the end of the text.

Does not own: the collection of faults, which belongs to whoever reads the tokens.
-/

set_option autoImplicit false

namespace AgentScript

/-- A place in a script and the text from there on. -/
structure Cursor where
  position : Position
  rest : List Char
deriving DecidableEq, Repr

/-- A token with what its reader needs to know besides: the line it ends on, which differs from the
line it starts on for literals over several lines, and its fault. -/
structure Lexed where
  token : Token
  endLine : Nat
  fault? : Option Diagnostic
deriving DecidableEq, Repr

/-- The tokens of a text, the end of input apart. -/
structure Scan where
  tokens : List Lexed
  ending : Lexed
deriving DecidableEq, Repr

namespace Cursor

def ofSource (source : String) : Cursor := ⟨Position.start, source.toList⟩

/-- Passes one character. -/
def step? : Cursor → Option (Char × Cursor)
  | ⟨_, []⟩ => none
  | ⟨position, char :: rest⟩ => some (char, ⟨position.after char, rest⟩)

/-- Passes blanks and comments. A comment starts with `#` and ends before a line feed. -/
def skipGapFrom (inComment : Bool) (position : Position) : List Char → Cursor
  | [] => ⟨position, []⟩
  | char :: rest =>
      if inComment && char ≠ '\n' then skipGapFrom true (position.after char) rest
      else if isBlank char then skipGapFrom false (position.after char) rest
      else if char = '#' then skipGapFrom true (position.after char) rest
      else ⟨position, char :: rest⟩

/-- Passes blanks and comments. -/
def skipGap (cursor : Cursor) : Cursor := skipGapFrom false cursor.position cursor.rest

/-- The fault of a literal whose closing quote is missing: it is reported where the literal starts. -/
def unterminatedAt (start : Position) (form : LiteralForm) : Diagnostic :=
  ⟨.unterminatedLiteral form.text start, start⟩

/-- The next token and the place after it. At the end of the text that is the end of input. -/
def next (cursor : Cursor) : Lexed × Cursor :=
  let start := cursor.skipGap
  match start.rest with
  | [] => (⟨⟨.endOfInput, "", start.position⟩, start.position.line, none⟩, start)
  | first :: rest =>
      let lexeme := Lexeme.read first rest
      let finish := start.position.afterText (first :: rest.take lexeme.more)
      (⟨⟨lexeme.kind, String.ofList lexeme.value, start.position⟩, finish.line,
          lexeme.unterminated?.map (unterminatedAt start.position)⟩,
        ⟨finish, rest.drop lexeme.more⟩)

/-- The tokens ahead. Each takes at least one character, so the text ahead bounds their number. -/
def scanFrom : List Char → Cursor → Scan
  | [], cursor => ⟨[], cursor.next.1⟩
  | _ :: bound, cursor =>
      let (lexed, after) := cursor.next
      if lexed.token.kind = .endOfInput then ⟨[], lexed⟩
      else
        let scan := scanFrom bound after
        { scan with tokens := lexed :: scan.tokens }

/-- The tokens ahead. -/
def scan (cursor : Cursor) : Scan := scanFrom cursor.rest cursor

end Cursor

/-- The tokens of a script, the end of input last. -/
def Scan.allTokens (scan : Scan) : List Token := (scan.tokens ++ [scan.ending]).map Lexed.token

/-- The faults of the tokens of a script, in order. -/
def Scan.faults (scan : Scan) : List Diagnostic := scan.tokens.filterMap Lexed.fault?

/-- The tokens of a script and what is wrong with them. -/
def tokenize (source : String) : List Token × Sink :=
  let scan := (Cursor.ofSource source).scan
  (scan.allTokens, Sink.empty.pushAll scan.faults)

end AgentScript
