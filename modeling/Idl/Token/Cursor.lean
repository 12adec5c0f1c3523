/-
This file scans the code of a source. A cursor holds the characters that are still
to be scanned and the place of the first of them. Blanks are skipped; a line feed and
each mark of punctuation are tokens of one character; a word reaches as far as
characters of words do. Any other character belongs to no token and is reported.
-/

import Idl.Source
import Idl.Token.Basic

namespace Idl

/-- A place in the code: the characters from there on, the line, and the column within it. -/
structure Cursor where
  rest : List Char
  line : Nat
  column : Nat
deriving DecidableEq, Repr

namespace Cursor

/-- The cursor past the blanks that it stands before. -/
def skipBlanks (cursor : Cursor) : Cursor where
  rest := cursor.rest.dropWhile Text.isBlank
  line := cursor.line
  column := cursor.column + (cursor.rest.takeWhile Text.isBlank).length

/-- The token of these characters at the cursor. -/
def token (cursor : Cursor) (kind : TokenKind) (characters : List Char) : Token :=
  ⟨kind, String.ofList characters, cursor.line, cursor.column⟩

/-- The kind of a character that is a mark of punctuation. -/
def punctuation? : Char → Option TokenKind
  | '\x7b' => some .leftBrace
  | '\x7d' => some .rightBrace
  | '(' => some .leftParenthesis
  | ')' => some .rightParenthesis
  | ',' => some .comma
  | _ => none

/-- The kind of a word: two words open declarations, all others are names. -/
def wordKind (word : String) : TokenKind :=
  if word == "message" then .message
  else if word == "service" then .service
  else .identifier

/-- What is said about a character that belongs to no token. -/
def invalidMessage (character : Char) : String :=
  "invalid character " ++ Text.quote (String.singleton character)

/-- The report of a character at the cursor that belongs to no token. -/
def invalid (source : Source) (cursor : Cursor) (character : Char) : Diagnostic :=
  source.diagnostic (invalidMessage character) (source.span cursor.line cursor.column 1)

/-- The token at a cursor that stands before no blank, and the cursor behind it. -/
def scan (source : Source) (cursor : Cursor) : Except Diagnostic (Token × Cursor) :=
  match cursor.rest with
  | [] => .ok (cursor.token .endOfFile [], cursor)
  | first :: rest =>
    if first == '\n' then .ok (cursor.token .newline [first], ⟨rest, cursor.line + 1, 0⟩)
    else
      match punctuation? first with
      | some kind => .ok (cursor.token kind [first], ⟨rest, cursor.line, cursor.column + 1⟩)
      | none =>
        if Text.isWordStart first then
          let word := first :: rest.takeWhile Text.isWordCharacter
          .ok (cursor.token (wordKind (String.ofList word)) word,
            ⟨rest.dropWhile Text.isWordCharacter, cursor.line, cursor.column + word.length⟩)
        else .error (cursor.invalid source first)

/-- The next token, and the cursor behind it. -/
def next (source : Source) (cursor : Cursor) : Except Diagnostic (Token × Cursor) :=
  cursor.skipBlanks.scan source

/-! ### Scanning comes to an end -/

private theorem length_dropWhile_le (test : Char → Bool) (characters : List Char) :
    (characters.dropWhile test).length ≤ characters.length :=
  (List.dropWhile_suffix test).length_le

private theorem scan_length_lt {source : Source} {cursor later : Cursor} {token : Token}
    (scanned : cursor.scan source = .ok (token, later)) (goesOn : token.kind ≠ .endOfFile) :
    later.rest.length < cursor.rest.length := by
  unfold scan at scanned
  split at scanned
  · simp only [Except.ok.injEq, Prod.mk.injEq] at scanned
    exact absurd (scanned.1 ▸ rfl) goesOn
  · rename_i first rest characters
    rw [characters, List.length_cons]
    split at scanned
    · simp only [Except.ok.injEq, Prod.mk.injEq] at scanned
      rw [← scanned.2]
      exact Nat.lt_succ_self _
    · split at scanned
      · simp only [Except.ok.injEq, Prod.mk.injEq] at scanned
        rw [← scanned.2]
        exact Nat.lt_succ_self _
      · split at scanned
        · simp only [Except.ok.injEq, Prod.mk.injEq] at scanned
          rw [← scanned.2]
          exact Nat.lt_succ_of_le (length_dropWhile_le _ _)
        · exact nomatch scanned

/-- Every token but the end of the file leaves fewer characters to scan. -/
theorem next_length_lt {source : Source} {cursor later : Cursor} {token : Token}
    (scanned : cursor.next source = .ok (token, later)) (goesOn : token.kind ≠ .endOfFile) :
    later.rest.length < cursor.rest.length :=
  Nat.lt_of_lt_of_le (scan_length_lt scanned goesOn) (length_dropWhile_le _ _)

end Cursor

namespace Source

/-- The cursor at the start of the code. -/
def start (source : Source) : Cursor := ⟨source.text, 0, 0⟩

/-- The tokens of the code, handed out one at a time. -/
def supply (source : Source) : TokenSupply Diagnostic Cursor where
  next := fun cursor => cursor.next source
  remaining := fun cursor => cursor.rest.length
  remaining_lt := Cursor.next_length_lt

/-- The tokens of the code, the end of the file last. -/
def tokens (source : Source) : Except Diagnostic (List Token) :=
  source.supply.tokens source.start

/-- The place in the file where a token stands. -/
def tokenSpan (source : Source) (token : Token) : Span :=
  source.span token.line token.column token.length

end Source

end Idl
