/-
This file says which texts the tokens of each kind have. Apart from names, every kind has
a single text. A name is a word that opens no declaration, so nothing that a file
declares can be mistaken for the start of a declaration. No text of a token holds a
space, and neither does its quoted form.
-/

import Idl.Proofs.Reading

namespace Idl

/-- What a message, a member, a service or a method may be called. -/
structure IsName (text : String) : Prop where
  word : Text.isWord text.toList = true
  ne_message : text ≠ "message"
  ne_service : text ≠ "service"

/-- The texts of each kind of token. -/
inductive Lexeme : TokenKind → String → Prop where
  | message : Lexeme .message "message"
  | service : Lexeme .service "service"
  | identifier {text : String} (name : IsName text) : Lexeme .identifier text
  | leftBrace : Lexeme .leftBrace "\x7b"
  | rightBrace : Lexeme .rightBrace "\x7d"
  | leftParenthesis : Lexeme .leftParenthesis "("
  | rightParenthesis : Lexeme .rightParenthesis ")"
  | comma : Lexeme .comma ","
  | newline : Lexeme .newline "\n"
  | endOfFile : Lexeme .endOfFile ""

theorem Lexeme.eq_of_newline {text : String} (lexeme : Lexeme .newline text) : text = "\n" := by
  cases lexeme
  rfl

/-! ### Scanning -/

namespace Cursor

theorem lexeme_wordKind {text : String} (word : Text.isWord text.toList = true) :
    Lexeme (wordKind text) text := by
  rw [wordKind]
  split
  · next same => exact (beq_iff_eq.mp same) ▸ .message
  · next notMessage =>
    split
    · next same => exact (beq_iff_eq.mp same) ▸ .service
    · next notService =>
      exact .identifier ⟨word, fun same => notMessage (beq_iff_eq.mpr same),
        fun same => notService (beq_iff_eq.mpr same)⟩

theorem lexeme_punctuation {character : Char} {kind : TokenKind}
    (mark : punctuation? character = some kind) : Lexeme kind (String.singleton character) := by
  unfold punctuation? at mark
  split at mark
  · exact Option.some.inj mark ▸ .leftBrace
  · exact Option.some.inj mark ▸ .rightBrace
  · exact Option.some.inj mark ▸ .leftParenthesis
  · exact Option.some.inj mark ▸ .rightParenthesis
  · exact Option.some.inj mark ▸ .comma
  · exact nomatch mark

theorem lexeme_scan {source : Source} {cursor later : Cursor} {token : Token}
    (scanned : cursor.scan source = .ok (token, later)) : Lexeme token.kind token.text := by
  unfold scan at scanned
  split at scanned
  · cases scanned
    exact .endOfFile
  · next first rest _ =>
    split at scanned
    · next feed =>
      cases scanned
      rw [beq_iff_eq.mp feed]
      exact .newline
    · split at scanned
      · next kind mark =>
        cases scanned
        exact lexeme_punctuation mark
      · split at scanned
        · next opens =>
          cases scanned
          refine lexeme_wordKind ?_
          rw [String.toList_ofList, Text.isWord, opens, Bool.true_and]
          exact List.all_takeWhile
        · cases scanned

end Cursor

/-- Every token of a source has a text of its kind. -/
theorem Source.lexeme_of_mem_delivered (source : Source) :
    ∀ token ∈ source.delivered, Lexeme token.kind token.text :=
  TokenSupply.forall_mem_deliver (fun handed => Cursor.lexeme_scan handed) source.start

end Idl
