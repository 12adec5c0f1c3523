/-
This file shows that a JSON text has one reading. Whatever is written shows where it ends:
a quoted text at the first quote that is not escaped, a list or a record at the bracket
that belongs to its own, a number in front of anything that is no digit. So two values
with the same text are the same value, however deeply they are nested and whatever the
texts inside them hold, and both ways of writing a value, on one line and over several,
lose nothing. The text on one line does stand on one line: it holds no control character.
-/

import Idl.Json
import Mathlib.Data.List.Basic

namespace Idl

namespace Text

/-! ### Quoted texts -/

/-- The number that a hexadecimal digit stands for. -/
def digitValue (digit : Char) : Nat :=
  if digit.isDigit then digit.toNat - 48 else digit.toNat - 87

/-- The character that a letter behind a backslash stands for. -/
def escapedLetter : Char → Char
  | 'b' => '\x08'
  | 't' => '\t'
  | 'n' => '\n'
  | 'f' => '\x0c'
  | 'r' => '\r'
  | same => same

/-- The character at the front of the inside of a quoted text, and what stands behind it. -/
def unescape? : List Char → Option (Char × List Char)
  | '\\' :: 'u' :: '0' :: '0' :: high :: low :: rest =>
    some (Char.ofNat (digitValue high * 16 + digitValue low), rest)
  | '\\' :: letter :: rest => some (escapedLetter letter, rest)
  | character :: rest => some (character, rest)
  | [] => none

theorem digitValue_digitChar : ∀ value < 16, digitValue (Nat.digitChar value) = value := by
  decide

/-- Every character can be told from its written form. -/
theorem unescape?_escape_append (character : Char) (rest : List Char) :
    unescape? (escape character ++ rest) = some (character, rest) := by
  unfold escape
  -- Seven characters are written as a backslash and a letter of their own.
  iterate 7
    split
    · next same => rw [beq_iff_eq.mp same]; rfl
  split
  · next control =>
    have high := digitValue_digitChar (character.toNat / 16) (by omega)
    have low := digitValue_digitChar (character.toNat % 16) (by omega)
    simp only [List.cons_append, List.nil_append, unescape?, high, low, Nat.div_add_mod',
      Char.ofNat_toNat]
  · next backslash _ _ _ _ _ _ =>
    have plain : character ≠ '\\' := fun same => backslash (beq_iff_eq.mpr same)
    rw [List.singleton_append, unescape?]
    · exact fun _ _ _ same => absurd same plain
    · exact fun _ _ same => absurd same plain

theorem escape_append_inj {first second : Char} {rest others : List Char}
    (same : escape first ++ rest = escape second ++ others) : first = second ∧ rest = others := by
  have read := congrArg unescape? same
  rw [unescape?_escape_append, unescape?_escape_append] at read
  exact Prod.mk.inj (Option.some.inj read)

/-- No written form of a character could be taken for the quote that closes a text. -/
theorem escape_append_ne (character : Char) (rest others : List Char) :
    escape character ++ rest ≠ '"' :: others := by
  intro same
  have read := congrArg unescape? same
  rw [unescape?_escape_append] at read
  obtain ⟨rfl, rfl⟩ := Prod.mk.inj (Option.some.inj read)
  exact absurd (congrArg List.head? same) (by simp [escape])

/-- A quoted text ends at its closing quote, whatever it holds. -/
theorem quoted_append_inj {first second rest others : List Char}
    (same : quoted first ++ rest = quoted second ++ others) : first = second ∧ rest = others := by
  have inside : first.flatMap escape ++ '"' :: rest = second.flatMap escape ++ '"' :: others := by
    simpa [quoted] using same
  clear same
  induction first generalizing second with
  | nil =>
    cases second with
    | nil => exact ⟨rfl, (List.cons.inj inside).2⟩
    | cons character later =>
      rw [List.flatMap_cons, List.append_assoc] at inside
      exact absurd inside.symm (escape_append_ne character _ rest)
  | cons character earlier inductionHypothesis =>
    cases second with
    | nil =>
      rw [List.flatMap_cons, List.append_assoc] at inside
      exact absurd inside (escape_append_ne character _ others)
    | cons other later =>
      rw [List.flatMap_cons, List.flatMap_cons, List.append_assoc, List.append_assoc] at inside
      obtain ⟨rfl, behind⟩ := escape_append_inj inside
      obtain ⟨rfl, same⟩ := inductionHypothesis behind
      exact ⟨rfl, same⟩

/-- A written form that is known can be looked through. -/
theorem le_toNat_of_all {written : List Char}
    (all : (written.all fun character => 32 ≤ character.toNat) = true) :
    ∀ character ∈ written, 32 ≤ character.toNat :=
  fun character member => of_decide_eq_true (List.all_eq_true.mp all character member)

/-- The written form of a character holds no control character, whatever the character is. -/
theorem le_toNat_of_mem_escape (character : Char) :
    ∀ written ∈ escape character, 32 ≤ written.toNat := by
  have digits : ∀ number < 32, 32 ≤ (Nat.digitChar (number / 16)).toNat ∧
      32 ≤ (Nat.digitChar (number % 16)).toNat := by
    decide
  unfold escape
  iterate 7
    split
    · exact le_toNat_of_all rfl
  split
  · next control =>
    obtain ⟨high, low⟩ := digits _ control
    rw [List.forall_mem_cons, List.forall_mem_cons, List.forall_mem_cons, List.forall_mem_cons,
      List.forall_mem_cons, List.forall_mem_singleton]
    exact ⟨by decide, by decide, by decide, by decide, high, low⟩
  · next noControl =>
    rw [List.forall_mem_singleton]
    exact Nat.le_of_not_lt noControl

/-- A quoted text holds no control character, whatever is quoted. -/
theorem le_toNat_of_mem_quoted {text : List Char} {written : Char} (member : written ∈ quoted text) :
    32 ≤ written.toNat := by
  rw [quoted, List.mem_cons, List.mem_append, List.mem_flatMap, List.mem_singleton] at member
  rcases member with rfl | ⟨character, _, inside⟩ | rfl
  · decide
  · exact le_toNat_of_mem_escape character written inside
  · decide

end Text

namespace Json

/-! ### Numbers -/

/-- What follows does not go on with a digit. -/
def Quiet (rest : List Char) : Prop := ∀ character ∈ rest.head?, character.isDigit = false

theorem quiet_cons {character : Char} (other : character.isDigit = false) (rest : List Char) :
    Quiet (character :: rest) := by
  rintro _ ⟨⟩
  exact other

theorem isDigit_of_mem_digits {value : Nat} {character : Char} (member : character ∈ digits value) :
    character.isDigit = true :=
  Nat.isDigit_of_mem_toDigits (by decide) (by decide) member

theorem takeWhile_digits_append (value : Nat) {rest : List Char} (quiet : Quiet rest) :
    (digits value ++ rest).takeWhile Char.isDigit = digits value := by
  rw [List.takeWhile_append_of_pos fun _ member => isDigit_of_mem_digits member]
  cases rest with
  | nil => exact List.append_nil _
  | cons first others =>
    rw [List.takeWhile_cons_of_neg (by rw [quiet first rfl]; decide), List.append_nil]

/-- A number ends at the first character that is no digit. -/
theorem digits_append_inj {first second : Nat} {rest others : List Char} (quiet : Quiet rest)
    (otherQuiet : Quiet others) (same : digits first ++ rest = digits second ++ others) :
    first = second ∧ rest = others := by
  have front : digits first = digits second := by
    rw [← takeWhile_digits_append first quiet, same, takeWhile_digits_append second otherQuiet]
  have value := congrArg (Nat.ofDigitChars 10 · 0) front
  simp only [digits, Nat.ofDigitChars_ten_toDigits] at value
  rw [front] at same
  exact ⟨value, List.append_cancel_left same⟩

/-! ### Both ways of writing -/

/-- What stands between the parts of a value: something blank in front of every entry and of the
closing bracket, and something behind the colon of a field. -/
structure Layout where
  line : Nat → List Char
  gap : List Char
  blank : ∀ level, ∀ character ∈ line level, character = '\n' ∨ character = ' '

/-- All parts stand on one line, without blanks. -/
def Layout.oneLine : Layout := ⟨fun _ => [], [], nofun⟩

/-- Every entry stands on a line of its own. -/
def Layout.spread : Layout where
  line := newLine
  gap := [' ']
  blank := by
    intro level character member
    rcases List.mem_cons.mp member with feed | space
    · exact Or.inl feed
    · exact Or.inr (List.eq_of_mem_replicate space)

mutual

/-- The value in a layout, its first line standing at the given level. -/
def chars (layout : Layout) (level : Nat) : Json → List Char
  | .null => ['n', 'u', 'l', 'l']
  | .number value => digits value
  | .text content => quotedText content
  | .array [] => ['[', ']']
  | .array (first :: rest) =>
    '[' :: (layout.line (level + 1) ++
      (chars layout (level + 1) first ++ itemChars layout level rest))
  | .object [] => ['\x7b', '\x7d']
  | .object ((name, value) :: rest) =>
    '\x7b' :: (layout.line (level + 1) ++ (quotedText name ++
      ':' :: (layout.gap ++ (chars layout (level + 1) value ++ fieldChars layout level rest))))

/-- The items after the first, and the bracket that closes them. -/
def itemChars (layout : Layout) (level : Nat) : List Json → List Char
  | [] => layout.line level ++ [']']
  | item :: rest =>
    ',' :: (layout.line (level + 1) ++
      (chars layout (level + 1) item ++ itemChars layout level rest))

/-- The fields after the first, and the brace that closes them. -/
def fieldChars (layout : Layout) (level : Nat) : List (String × Json) → List Char
  | [] => layout.line level ++ ['\x7d']
  | (name, value) :: rest =>
    ',' :: (layout.line (level + 1) ++ (quotedText name ++
      ':' :: (layout.gap ++ (chars layout (level + 1) value ++ fieldChars layout level rest))))

end

mutual

theorem chars_spread (level : Nat) : ∀ value : Json, chars .spread level value =
    value.prettyChars level
  | .null => rfl
  | .number _ => rfl
  | .text _ => rfl
  | .array [] => rfl
  | .array (first :: rest) => by
    rw [chars, prettyChars, chars_spread (level + 1) first, itemChars_spread level rest]
    rfl
  | .object [] => rfl
  | .object ((_, value) :: rest) => by
    rw [chars, prettyChars, chars_spread (level + 1) value, fieldChars_spread level rest]
    rfl

theorem itemChars_spread (level : Nat) : ∀ items : List Json, itemChars .spread level items =
    prettyItems level items
  | [] => rfl
  | item :: rest => by
    rw [itemChars, prettyItems, chars_spread (level + 1) item, itemChars_spread level rest]
    rfl

theorem fieldChars_spread (level : Nat) : ∀ fields : List (String × Json),
    fieldChars .spread level fields = prettyFields level fields
  | [] => rfl
  | (_, value) :: rest => by
    rw [fieldChars, prettyFields, chars_spread (level + 1) value, fieldChars_spread level rest]
    rfl

end

mutual

theorem chars_oneLine (level : Nat) : ∀ value : Json, chars .oneLine level value =
    value.compactChars
  | .null => rfl
  | .number _ => rfl
  | .text _ => rfl
  | .array [] => rfl
  | .array (first :: rest) => by
    rw [chars, compactChars, chars_oneLine (level + 1) first, itemChars_oneLine level rest]
    rfl
  | .object [] => rfl
  | .object ((_, value) :: rest) => by
    rw [chars, compactChars, chars_oneLine (level + 1) value, fieldChars_oneLine level rest]
    rfl

theorem itemChars_oneLine (level : Nat) : ∀ items : List Json, itemChars .oneLine level items =
    compactItems items
  | [] => rfl
  | item :: rest => by
    rw [itemChars, compactItems, chars_oneLine (level + 1) item, itemChars_oneLine level rest]
    rfl

theorem fieldChars_oneLine (level : Nat) : ∀ fields : List (String × Json),
    fieldChars .oneLine level fields = compactFields fields
  | [] => rfl
  | (_, value) :: rest => by
    rw [fieldChars, compactFields, chars_oneLine (level + 1) value, fieldChars_oneLine level rest]
    rfl

end

/-! ### Where a value ends -/

/-- The character that the written form of a value begins with. -/
def Opens : Json → Char → Prop
  | .null, character => character = 'n'
  | .number _, character => character.isDigit = true
  | .text _, character => character = '"'
  | .array _, character => character = '['
  | .object _, character => character = '\x7b'

theorem exists_chars_eq_cons (layout : Layout) (level : Nat) (value : Json) :
    ∃ character rest, value.Opens character ∧ chars layout level value = character :: rest := by
  cases value with
  | null => exact ⟨_, _, rfl, rfl⟩
  | number value =>
    have some : Nat.toDigits 10 value ≠ [] := Nat.toDigits_ne_nil
    obtain ⟨digit, rest, shape⟩ := List.exists_cons_of_ne_nil some
    exact ⟨digit, rest, isDigit_of_mem_digits (shape ▸ List.mem_cons_self), shape⟩
  | text content => exact ⟨_, _, rfl, rfl⟩
  | array items => cases items <;> exact ⟨_, _, rfl, rfl⟩
  | object fields => cases fields <;> exact ⟨_, _, rfl, rfl⟩

/-- The values are of one form. -/
inductive Akin : Json → Json → Prop where
  | null : Akin .null .null
  | number (first second : Nat) : Akin (.number first) (.number second)
  | text (first second : String) : Akin (.text first) (.text second)
  | array (first second : List Json) : Akin (.array first) (.array second)
  | object (first second : List (String × Json)) : Akin (.object first) (.object second)

theorem Opens.akin {first second : Json} {character : Char} (one : first.Opens character)
    (other : second.Opens character) : Akin first second := by
  cases first <;> cases second <;> first | constructor | skip
  all_goals
    simp only [Opens] at one other
    subst_vars
    contradiction

theorem akin_of_chars {layout : Layout} {level : Nat} {first second : Json}
    {rest others : List Char}
    (same : chars layout level first ++ rest = chars layout level second ++ others) :
    Akin first second := by
  obtain ⟨character, behind, opens, shape⟩ := exists_chars_eq_cons layout level first
  obtain ⟨other, otherBehind, otherOpens, otherShape⟩ := exists_chars_eq_cons layout level second
  rw [shape, otherShape] at same
  obtain ⟨rfl, _⟩ := List.cons.inj same
  exact opens.akin otherOpens

/-- What stands between two parts is no part itself. -/
theorem eq_of_line_append {layout : Layout} {level : Nat} {rest others : List Char}
    {character : Char} (feed : character ≠ '\n') (space : character ≠ ' ')
    (same : layout.line level ++ rest = character :: others) : rest = character :: others := by
  cases line : layout.line level with
  | nil => rwa [line] at same
  | cons first behind =>
    rw [line, List.cons_append] at same
    obtain ⟨rfl, _⟩ := List.cons.inj same
    have blank := layout.blank level first (line ▸ List.mem_cons_self)
    exact absurd blank (not_or.mpr ⟨feed, space⟩)

theorem quiet_line_append (layout : Layout) (level : Nat) {rest : List Char} (quiet : Quiet rest) :
    Quiet (layout.line level ++ rest) := by
  cases line : layout.line level with
  | nil => exact quiet
  | cons first behind =>
    refine quiet_cons ?_ _
    rcases layout.blank level first (line ▸ List.mem_cons_self) with rfl | rfl <;> rfl

section Appended

variable (layout : Layout) (level : Nat) (rest : List Char)

theorem chars_array_append (item : Json) (items : List Json) :
    chars layout level (.array (item :: items)) ++ rest =
      '[' :: (layout.line (level + 1) ++
        (chars layout (level + 1) item ++ (itemChars layout level items ++ rest))) := by
  simp only [chars, List.cons_append, List.append_assoc]

theorem chars_object_append (field : String × Json) (fields : List (String × Json)) :
    chars layout level (.object (field :: fields)) ++ rest =
      '\x7b' :: (layout.line (level + 1) ++ (quotedText field.1 ++ ':' :: (layout.gap ++
        (chars layout (level + 1) field.2 ++ (fieldChars layout level fields ++ rest))))) := by
  simp only [chars, List.cons_append, List.append_assoc]

theorem itemChars_nil_append :
    itemChars layout level [] ++ rest = layout.line level ++ ']' :: rest := by
  simp only [itemChars, List.append_assoc, List.singleton_append]

theorem itemChars_cons_append (item : Json) (items : List Json) :
    itemChars layout level (item :: items) ++ rest =
      ',' :: (layout.line (level + 1) ++
        (chars layout (level + 1) item ++ (itemChars layout level items ++ rest))) := by
  simp only [itemChars, List.cons_append, List.append_assoc]

theorem fieldChars_nil_append :
    fieldChars layout level [] ++ rest = layout.line level ++ '\x7d' :: rest := by
  simp only [fieldChars, List.append_assoc, List.singleton_append]

theorem fieldChars_cons_append (field : String × Json) (fields : List (String × Json)) :
    fieldChars layout level (field :: fields) ++ rest =
      ',' :: (layout.line (level + 1) ++ (quotedText field.1 ++ ':' :: (layout.gap ++
        (chars layout (level + 1) field.2 ++ (fieldChars layout level fields ++ rest))))) := by
  simp only [fieldChars, List.cons_append, List.append_assoc]

end Appended

theorem quiet_itemChars_append (layout : Layout) (level : Nat) (items : List Json)
    (rest : List Char) : Quiet (itemChars layout level items ++ rest) := by
  cases items with
  | nil =>
    rw [itemChars_nil_append]
    exact quiet_line_append layout level (quiet_cons rfl _)
  | cons item others => exact quiet_cons rfl _

theorem quiet_fieldChars_append (layout : Layout) (level : Nat) (fields : List (String × Json))
    (rest : List Char) : Quiet (fieldChars layout level fields ++ rest) := by
  cases fields with
  | nil =>
    rw [fieldChars_nil_append]
    exact quiet_line_append layout level (quiet_cons rfl _)
  | cons field others => exact quiet_cons rfl _

theorem quotedText_append_inj {first second : String} {rest others : List Char}
    (same : quotedText first ++ rest = quotedText second ++ others) :
    first = second ∧ rest = others :=
  (Text.quoted_append_inj same).imp_left String.toList_inj.mp

/-- A list that has an item is not closed at once. -/
theorem line_chars_append_ne {layout : Layout} {line level : Nat} {value : Json}
    {rest others : List Char} :
    layout.line line ++ (chars layout level value ++ rest) ≠ ']' :: others := by
  intro same
  have behind := eq_of_line_append (by decide) (by decide) same
  obtain ⟨character, _, opens, shape⟩ := exists_chars_eq_cons layout level value
  rw [shape] at behind
  obtain ⟨rfl, _⟩ := List.cons.inj behind
  cases value <;> exact absurd opens (by simp [Opens])

/-- A record that has a field is not closed at once. -/
theorem line_quotedText_append_ne {layout : Layout} {line : Nat} {name : String}
    {rest others : List Char} :
    layout.line line ++ (quotedText name ++ rest) ≠ '\x7d' :: others := by
  intro same
  have behind := eq_of_line_append (by decide) (by decide) same
  exact absurd (List.cons.inj behind).1 (by decide)

/-- A field ends where its value does. -/
theorem field_append_inj {layout : Layout} {level : Nat} {field other : String × Json}
    {rest others : List Char}
    (ends : chars layout level field.2 ++ rest = chars layout level other.2 ++ others →
      field.2 = other.2 ∧ rest = others)
    (same : quotedText field.1 ++ ':' :: (layout.gap ++ (chars layout level field.2 ++ rest)) =
      quotedText other.1 ++ ':' :: (layout.gap ++ (chars layout level other.2 ++ others))) :
    field = other ∧ rest = others := by
  obtain ⟨name, colon⟩ := quotedText_append_inj same
  obtain ⟨value, behind⟩ := ends (List.append_cancel_left (List.cons.inj colon).2)
  exact ⟨Prod.ext name value, behind⟩

mutual

/-- A value ends where its written form shows it. -/
theorem chars_append_inj (layout : Layout) (level : Nat) : ∀ (first second : Json)
    {rest others : List Char}, Quiet rest → Quiet others →
      chars layout level first ++ rest = chars layout level second ++ others →
        first = second ∧ rest = others
  | .null, _, _, _, _, _, same => by
    cases akin_of_chars same
    exact ⟨rfl, List.append_cancel_left same⟩
  | .number _, _, _, _, quiet, otherQuiet, same => by
    cases akin_of_chars same
    exact (digits_append_inj quiet otherQuiet same).imp_left (congrArg number)
  | .text _, _, _, _, _, _, same => by
    cases akin_of_chars same
    exact (quotedText_append_inj same).imp_left (congrArg text)
  | .array [], _, _, _, _, _, same => by
    cases akin_of_chars same with
    | array _ second =>
      cases second with
      | nil => exact ⟨rfl, List.append_cancel_left same⟩
      | cons value items =>
        rw [chars_array_append] at same
        exact absurd (List.cons.inj same).2.symm line_chars_append_ne
  | .array (item :: items), _, rest, others, _, _, same => by
    cases akin_of_chars same with
    | array _ second =>
      rw [chars_array_append] at same
      cases second with
      | nil => exact absurd (List.cons.inj same).2 line_chars_append_ne
      | cons other later =>
        rw [chars_array_append] at same
        obtain ⟨rfl, ending⟩ := chars_append_inj layout (level + 1) item other
          (quiet_itemChars_append layout level items rest)
          (quiet_itemChars_append layout level later others)
          (List.append_cancel_left (List.cons.inj same).2)
        obtain ⟨rfl, behind⟩ := itemChars_append_inj layout level items later ending
        exact ⟨rfl, behind⟩
  | .object [], _, _, _, _, _, same => by
    cases akin_of_chars same with
    | object _ second =>
      cases second with
      | nil => exact ⟨rfl, List.append_cancel_left same⟩
      | cons field fields =>
        rw [chars_object_append] at same
        exact absurd (List.cons.inj same).2.symm line_quotedText_append_ne
  | .object ((name, value) :: fields), _, rest, others, _, _, same => by
    cases akin_of_chars same with
    | object _ second =>
      rw [chars_object_append] at same
      cases second with
      | nil => exact absurd (List.cons.inj same).2 line_quotedText_append_ne
      | cons field later =>
        rw [chars_object_append] at same
        obtain ⟨rfl, ending⟩ := field_append_inj
          (chars_append_inj layout (level + 1) value field.2
            (quiet_fieldChars_append layout level fields rest)
            (quiet_fieldChars_append layout level later others))
          (List.append_cancel_left (List.cons.inj same).2)
        obtain ⟨rfl, behind⟩ := fieldChars_append_inj layout level fields later ending
        exact ⟨rfl, behind⟩

theorem itemChars_append_inj (layout : Layout) (level : Nat) : ∀ (first second : List Json)
    {rest others : List Char},
      itemChars layout level first ++ rest = itemChars layout level second ++ others →
        first = second ∧ rest = others
  | [], [], _, _, same => ⟨rfl, List.append_cancel_left same⟩
  | [], _ :: _, _, _, same => by
    rw [itemChars_nil_append] at same
    exact nomatch eq_of_line_append (by decide) (by decide) same
  | _ :: _, [], _, _, same => by
    rw [itemChars_nil_append] at same
    exact nomatch eq_of_line_append (by decide) (by decide) same.symm
  | item :: items, other :: later, rest, others, same => by
    rw [itemChars_cons_append, itemChars_cons_append] at same
    obtain ⟨rfl, ending⟩ := chars_append_inj layout (level + 1) item other
      (quiet_itemChars_append layout level items rest)
      (quiet_itemChars_append layout level later others)
      (List.append_cancel_left (List.cons.inj same).2)
    obtain ⟨rfl, behind⟩ := itemChars_append_inj layout level items later ending
    exact ⟨rfl, behind⟩

theorem fieldChars_append_inj (layout : Layout) (level : Nat) :
    ∀ (first second : List (String × Json)) {rest others : List Char},
      fieldChars layout level first ++ rest = fieldChars layout level second ++ others →
        first = second ∧ rest = others
  | [], [], _, _, same => ⟨rfl, List.append_cancel_left same⟩
  | [], _ :: _, _, _, same => by
    rw [fieldChars_nil_append] at same
    exact nomatch eq_of_line_append (by decide) (by decide) same
  | _ :: _, [], _, _, same => by
    rw [fieldChars_nil_append] at same
    exact nomatch eq_of_line_append (by decide) (by decide) same.symm
  | (name, value) :: fields, other :: later, rest, others, same => by
    rw [fieldChars_cons_append, fieldChars_cons_append] at same
    obtain ⟨rfl, ending⟩ := field_append_inj
      (chars_append_inj layout (level + 1) value other.2
        (quiet_fieldChars_append layout level fields rest)
        (quiet_fieldChars_append layout level later others))
      (List.append_cancel_left (List.cons.inj same).2)
    obtain ⟨rfl, behind⟩ := fieldChars_append_inj layout level fields later ending
    exact ⟨rfl, behind⟩

end

theorem chars_injective (layout : Layout) : Function.Injective (chars layout 0) := by
  intro first second same
  have quiet : Quiet [] := nofun
  refine (chars_append_inj layout 0 first second quiet quiet ?_).1
  rw [same]

/-- A value is known by its text over several lines. -/
theorem pretty_injective : Function.Injective pretty := by
  intro first second same
  refine chars_injective .spread ?_
  rw [chars_spread, chars_spread]
  exact String.ofList_injective same

/-- A value is known by its text on one line. -/
theorem compact_injective : Function.Injective compact := by
  intro first second same
  refine chars_injective .oneLine ?_
  rw [chars_oneLine, chars_oneLine]
  exact String.ofList_injective same

/-! ### No control characters -/

theorem le_toNat_of_isDigit {character : Char} (digit : character.isDigit = true) :
    32 ≤ character.toNat := by
  rw [Char.isDigit, Bool.and_eq_true, decide_eq_true_eq] at digit
  exact Nat.le_trans (by decide) digit.1

mutual

theorem le_toNat_of_mem_compactChars : ∀ value : Json, ∀ character ∈ value.compactChars,
    32 ≤ character.toNat
  | .null => Text.le_toNat_of_all rfl
  | .number _ => fun _ member => le_toNat_of_isDigit (isDigit_of_mem_digits member)
  | .text _ => fun _ member => Text.le_toNat_of_mem_quoted member
  | .array [] => Text.le_toNat_of_all rfl
  | .array (first :: rest) => by
    intro character member
    rw [compactChars, List.mem_cons, List.mem_append] at member
    rcases member with rfl | inFirst | inRest
    · decide
    · exact le_toNat_of_mem_compactChars first character inFirst
    · exact le_toNat_of_mem_compactItems rest character inRest
  | .object [] => Text.le_toNat_of_all rfl
  | .object ((name, value) :: rest) => by
    intro character member
    rw [compactChars, List.mem_cons, List.mem_append, List.mem_cons, List.mem_append] at member
    rcases member with rfl | inName | rfl | inValue | inRest
    · decide
    · exact Text.le_toNat_of_mem_quoted inName
    · decide
    · exact le_toNat_of_mem_compactChars value character inValue
    · exact le_toNat_of_mem_compactFields rest character inRest

theorem le_toNat_of_mem_compactItems : ∀ items : List Json, ∀ character ∈ compactItems items,
    32 ≤ character.toNat
  | [] => Text.le_toNat_of_all rfl
  | item :: rest => by
    intro character member
    rw [compactItems, List.mem_cons, List.mem_append] at member
    rcases member with rfl | inItem | inRest
    · decide
    · exact le_toNat_of_mem_compactChars item character inItem
    · exact le_toNat_of_mem_compactItems rest character inRest

theorem le_toNat_of_mem_compactFields : ∀ fields : List (String × Json),
    ∀ character ∈ compactFields fields, 32 ≤ character.toNat
  | [] => Text.le_toNat_of_all rfl
  | (name, value) :: rest => by
    intro character member
    rw [compactFields, List.mem_cons, List.mem_append, List.mem_cons, List.mem_append] at member
    rcases member with rfl | inName | rfl | inValue | inRest
    · decide
    · exact Text.le_toNat_of_mem_quoted inName
    · decide
    · exact le_toNat_of_mem_compactChars value character inValue
    · exact le_toNat_of_mem_compactFields rest character inRest

end

/-- The compact text of a value holds no control character, whatever texts the value holds. -/
theorem le_toNat_of_mem_compact {value : Json} {character : Char}
    (member : character ∈ value.compact.toList) : 32 ≤ character.toNat := by
  rw [compact, String.toList_ofList] at member
  exact le_toNat_of_mem_compactChars value character member

/-- The compact text of a value stands on one line. -/
theorem newline_notMem_compact (value : Json) : '\n' ∉ value.compact.toList :=
  fun member => absurd (le_toNat_of_mem_compact member) (by decide)

end Json

end Idl
