/-
This file fixes the sentences of the language: the sequences of kinds of token that a
file may consist of, up to and with its end. The grammar is regular, so it is written as
regular expressions over kinds. Each phase of reading has the language of what may still
follow it, and that language taken apart at its first kind is exactly the choice that
the phase makes on its next token. Since something may follow every phase, the
sequences that reading accepts so far are the beginnings of sentences and no others.
-/

import Idl.Declaration.Phase
import Mathlib.Computability.Language

namespace Idl

open scoped Computability

namespace Grammar

/-! ### The grammar -/

/-- These kinds and nothing else. -/
def exactly (kinds : List TokenKind) : Language TokenKind := {kinds}

/-- A member: its type and its name, on a line of their own. -/
def member : Language TokenKind := exactly [.identifier, .identifier, .newline]

/-- What a method takes: types with commas between them, or nothing. -/
def parameters : Language TokenKind := 1 + exactly [.identifier] * (exactly [.comma, .identifier])∗

/-- A method: the type that it returns, its name and what it takes, on a line of their own. -/
def method : Language TokenKind :=
  exactly [.identifier, .identifier, .leftParenthesis] *
    (parameters * exactly [.rightParenthesis, .newline])

/-- The declaration of a message, which has one member at least. -/
def message : Language TokenKind :=
  exactly [.message, .identifier, .leftBrace, .newline] *
    ((member * member∗) * exactly [.rightBrace])

/-- The declaration of a service, which has one method at least. -/
def service : Language TokenKind :=
  exactly [.service, .identifier, .leftBrace, .newline] *
    ((method * method∗) * exactly [.rightBrace])

/-- A declaration. -/
def statement : Language TokenKind := message + service

/-- One declaration or more, with a line feed between each two. -/
def statements : Language TokenKind := statement * (exactly [.newline] * statement)∗

/-- What a file may hold: nothing, or declarations, which a line feed may precede. -/
def code : Language TokenKind := 1 + statements + exactly [.newline] * statements

/-- What a file may hold, and the end of the file. -/
def sentences : Language TokenKind := code * exactly [.endOfFile]

/-- The kinds are the beginning of a sentence. -/
def Viable (kinds : List TokenKind) : Prop := ∃ rest, kinds ++ rest ∈ sentences

theorem Viable.of_append {first second : List TokenKind} (viable : Viable (first ++ second)) :
    Viable first := by
  obtain ⟨rest, member⟩ := viable
  rw [List.append_assoc] at member
  exact ⟨second ++ rest, member⟩

/-! ### What may follow a part of a sentence -/

/-- What may follow a declaration. -/
def afterStatement : Language TokenKind := (exactly [.newline] * statement)∗ * exactly [.endOfFile]

/-- What may follow a member and its line feed. -/
def afterMember : Language TokenKind := member∗ * (exactly [.rightBrace] * afterStatement)

/-- What may follow a method and its line feed. -/
def afterMethod : Language TokenKind := method∗ * (exactly [.rightBrace] * afterStatement)

/-- What may follow a parameter. -/
def afterParameter : Language TokenKind :=
  (exactly [.comma, .identifier])∗ * (exactly [.rightParenthesis, .newline] * afterMethod)

/-- What may follow the line feed that opens a body. -/
def afterOpening : DeclarationKind → Language TokenKind
  | .message => member * afterMember
  | .service => method * afterMethod

/-- What may follow at the start of a line of a body, given its entries so far: while there are
none, an entry is still due. -/
def atLine {Entry : Type} (entry rest : Language TokenKind) : List Entry → Language TokenKind
  | [] => entry * rest
  | _ :: _ => rest

/-- What may follow a phase. -/
def after : Phase → Language TokenKind
  | .fresh => sentences
  | .between => statement * afterStatement
  | .keyword kind => exactly [.identifier, .leftBrace, .newline] * afterOpening kind
  | .named heading => exactly [.leftBrace, .newline] * afterOpening heading.kind
  | .opened heading => exactly [.newline] * afterOpening heading.kind
  | .memberLine _ members => atLine member afterMember members
  | .memberTyped _ _ _ => exactly [.identifier, .newline] * afterMember
  | .memberNamed _ members => exactly [.newline] * atLine member afterMember members
  | .methodLine _ methods => atLine method afterMethod methods
  | .methodTyped _ _ _ =>
    exactly [.identifier, .leftParenthesis] *
      (parameters * (exactly [.rightParenthesis, .newline] * afterMethod))
  | .methodNamed _ _ _ =>
    exactly [.leftParenthesis] *
      (parameters * (exactly [.rightParenthesis, .newline] * afterMethod))
  | .listOpened _ _ _ => parameters * (exactly [.rightParenthesis, .newline] * afterMethod)
  | .parameter _ _ _ _ => afterParameter
  | .comma _ _ _ _ => exactly [.identifier] * afterParameter
  | .listClosed _ methods => exactly [.newline] * atLine method afterMethod methods
  | .closed _ => afterStatement
  | .finished => 1

/-! ### Taking languages apart -/

@[simp] theorem exactly_nil : exactly [] = 1 := Language.one_def.symm

theorem cons_mem_exactly_mul {kind first : TokenKind} {kinds word : List TokenKind}
    {language : Language TokenKind} :
    kind :: kinds ∈ exactly (first :: word) * language ↔
      kind = first ∧ kinds ∈ exactly word * language := by
  simp only [Language.mem_mul]
  constructor
  · rintro ⟨_, rfl, rest, member, joined⟩
    obtain ⟨same, others⟩ := List.cons.inj joined
    exact ⟨same.symm, word, rfl, rest, member, others⟩
  · rintro ⟨rfl, _, rfl, rest, member, rfl⟩
    exact ⟨_, rfl, rest, member, rfl⟩

theorem cons_mem_exactly {kind first : TokenKind} {kinds : List TokenKind} :
    kind :: kinds ∈ exactly [first] ↔ kind = first ∧ kinds ∈ (1 : Language TokenKind) := by
  rw [← mul_one (exactly [first]), cons_mem_exactly_mul, exactly_nil, one_mul]

/-- A repetition followed by something is either that or one turn before it. -/
theorem kstar_mul (language next : Language TokenKind) :
    language∗ * next = next + language * (language∗ * next) := by
  conv_lhs => rw [← Language.one_add_self_mul_kstar_eq_kstar]
  rw [add_mul, one_mul, mul_assoc]

theorem afterStatement_eq :
    afterStatement = exactly [.endOfFile] + exactly [.newline] * (statement * afterStatement) := by
  conv_lhs => rw [afterStatement, kstar_mul, mul_assoc]
  rfl

theorem afterMember_eq :
    afterMember = exactly [.rightBrace] * afterStatement + member * afterMember :=
  kstar_mul member _

theorem afterMethod_eq :
    afterMethod = exactly [.rightBrace] * afterStatement + method * afterMethod :=
  kstar_mul method _

theorem afterParameter_eq :
    afterParameter = exactly [.rightParenthesis, .newline] * afterMethod +
      exactly [.comma, .identifier] * afterParameter :=
  kstar_mul (exactly [.comma, .identifier]) _

theorem parameters_mul :
    parameters * (exactly [.rightParenthesis, .newline] * afterMethod) =
      exactly [.rightParenthesis, .newline] * afterMethod +
        exactly [.identifier] * afterParameter := by
  rw [parameters, add_mul, one_mul, mul_assoc, afterParameter]

theorem method_mul :
    method * afterMethod = exactly [.identifier, .identifier, .leftParenthesis] *
      (parameters * (exactly [.rightParenthesis, .newline] * afterMethod)) := by
  rw [method, mul_assoc, mul_assoc]

theorem statement_mul :
    statement * afterStatement =
      exactly [.message, .identifier, .leftBrace, .newline] * afterOpening .message +
        exactly [.service, .identifier, .leftBrace, .newline] * afterOpening .service := by
  simp only [statement, message, service, add_mul, mul_assoc, afterOpening, afterMember,
    afterMethod]

theorem sentences_eq :
    sentences = exactly [.endOfFile] + statement * afterStatement +
      exactly [.newline] * (statement * afterStatement) := by
  rw [sentences, code, statements, afterStatement, add_mul, add_mul, one_mul]
  simp only [mul_assoc]

/-! ### Phases and sentences -/

/-- What may follow a phase, taken apart at its first kind: it is what may follow the phase that
a token of that kind leads to. -/
theorem cons_mem_after (place : Token → Span) (phase : Phase) (token : Token)
    (kinds : List TokenKind) :
    token.kind :: kinds ∈ after phase ↔
      ∃ next, phase.next? place token = some next ∧ kinds ∈ after next := by
  cases phase with
  | fresh =>
    rw [after, sentences_eq, statement_mul]
    simp only [Language.mem_add, cons_mem_exactly, cons_mem_exactly_mul, exactly_nil, one_mul]
    cases kind : token.kind <;>
      simp [Phase.next?, kind, after, statement_mul, Language.mem_add, -add_eq_sup]
  | between =>
    rw [after, statement_mul]
    simp only [Language.mem_add, cons_mem_exactly_mul]
    cases kind : token.kind <;> simp [Phase.next?, kind, after]
  | memberLine heading members =>
    cases members with
    | nil =>
      simp only [after, atLine, member, cons_mem_exactly_mul]
      cases kind : token.kind <;> simp [Phase.next?, kind]
    | cons first others =>
      rw [after, atLine, afterMember_eq, member]
      simp only [Language.mem_add, cons_mem_exactly_mul, exactly_nil, one_mul]
      cases kind : token.kind <;> simp [Phase.next?, kind, after]
  | methodLine heading methods =>
    cases methods with
    | nil =>
      rw [after, atLine, method_mul]
      simp only [cons_mem_exactly_mul]
      cases kind : token.kind <;> simp [Phase.next?, kind, after]
    | cons first others =>
      rw [after, atLine, afterMethod_eq, method_mul]
      simp only [Language.mem_add, cons_mem_exactly_mul, exactly_nil, one_mul]
      cases kind : token.kind <;> simp [Phase.next?, kind, after]
  | listOpened heading methods method =>
    rw [after, parameters_mul]
    simp only [Language.mem_add, cons_mem_exactly_mul, exactly_nil, one_mul]
    cases kind : token.kind <;> simp [Phase.next?, kind, after, atLine]
  | parameter heading methods method parameters =>
    rw [after, afterParameter_eq]
    simp only [Language.mem_add, cons_mem_exactly_mul]
    cases kind : token.kind <;> simp [Phase.next?, kind, after, atLine]
  | closed declaration =>
    rw [after, afterStatement_eq]
    simp only [Language.mem_add, cons_mem_exactly, cons_mem_exactly_mul, exactly_nil, one_mul]
    cases kind : token.kind <;> simp [Phase.next?, kind, after]
  | opened heading =>
    simp only [after, cons_mem_exactly_mul, exactly_nil, one_mul]
    cases opens : heading.kind <;> cases kind : token.kind <;>
      simp [Phase.next?, Phase.body, opens, kind, afterOpening, atLine]
  | _ =>
    simp only [after, cons_mem_exactly_mul, exactly_nil, one_mul, Language.mem_one]
    cases kind : token.kind <;> simp [Phase.next?, kind, atLine]

/-- Reading a sequence of tokens is possible exactly as far as it can be followed by something. -/
theorem append_mem_after (place : Token → Span) (phase : Phase) (tokens : List Token)
    (kinds : List TokenKind) :
    tokens.map Token.kind ++ kinds ∈ after phase ↔
      ∃ last, tokens.foldlM (Phase.next? place) phase = some last ∧ kinds ∈ after last := by
  induction tokens generalizing phase with
  | nil => simp
  | cons token rest inductionHypothesis =>
    rw [List.map_cons, List.cons_append, cons_mem_after place, List.foldlM_cons]
    cases phase.next? place token with
    | none => simp
    | some next => simpa using inductionHypothesis next

/-! ### Every phase can be completed -/

theorem exists_mem_exactly (word : List TokenKind) : ∃ kinds, kinds ∈ exactly word := ⟨word, rfl⟩

theorem exists_mem_exactly_mul (word : List TokenKind) {language : Language TokenKind}
    (follows : ∃ kinds, kinds ∈ language) : ∃ kinds, kinds ∈ exactly word * language := by
  obtain ⟨kinds, member⟩ := follows
  exact ⟨word ++ kinds, Language.append_mem_mul rfl member⟩

theorem exists_mem_add {language : Language TokenKind} (follows : ∃ kinds, kinds ∈ language)
    (other : Language TokenKind) : ∃ kinds, kinds ∈ language + other := by
  obtain ⟨kinds, member⟩ := follows
  exact ⟨kinds, Or.inl member⟩

theorem exists_mem_afterStatement : ∃ kinds, kinds ∈ afterStatement := by
  rw [afterStatement_eq]
  exact exists_mem_add (exists_mem_exactly _) _

theorem exists_mem_afterMember : ∃ kinds, kinds ∈ afterMember := by
  rw [afterMember_eq]
  exact exists_mem_add (exists_mem_exactly_mul _ exists_mem_afterStatement) _

theorem exists_mem_afterMethod : ∃ kinds, kinds ∈ afterMethod := by
  rw [afterMethod_eq]
  exact exists_mem_add (exists_mem_exactly_mul _ exists_mem_afterStatement) _

theorem exists_mem_afterParameter : ∃ kinds, kinds ∈ afterParameter := by
  rw [afterParameter_eq]
  exact exists_mem_add (exists_mem_exactly_mul _ exists_mem_afterMethod) _

theorem exists_mem_parameters_mul :
    ∃ kinds, kinds ∈ parameters * (exactly [.rightParenthesis, .newline] * afterMethod) := by
  rw [parameters_mul]
  exact exists_mem_add (exists_mem_exactly_mul _ exists_mem_afterMethod) _

theorem exists_mem_afterOpening (kind : DeclarationKind) : ∃ kinds, kinds ∈ afterOpening kind := by
  cases kind with
  | message => exact exists_mem_exactly_mul _ exists_mem_afterMember
  | service =>
    rw [afterOpening, method_mul]
    exact exists_mem_exactly_mul _ exists_mem_parameters_mul

theorem exists_mem_atMember (members : List Member) :
    ∃ kinds, kinds ∈ atLine member afterMember members := by
  cases members with
  | nil => exact exists_mem_afterOpening .message
  | cons first others => exact exists_mem_afterMember

theorem exists_mem_atMethod (methods : List Method) :
    ∃ kinds, kinds ∈ atLine method afterMethod methods := by
  cases methods with
  | nil => exact exists_mem_afterOpening .service
  | cons first others => exact exists_mem_afterMethod

/-- Something may follow every phase. -/
theorem exists_mem_after (phase : Phase) : ∃ kinds, kinds ∈ after phase := by
  cases phase with
  | fresh =>
    rw [after, sentences_eq, add_assoc]
    exact exists_mem_add (exists_mem_exactly _) _
  | between =>
    rw [after, statement_mul]
    exact exists_mem_add (exists_mem_exactly_mul _ (exists_mem_afterOpening .message)) _
  | keyword kind => exact exists_mem_exactly_mul _ (exists_mem_afterOpening kind)
  | named heading => exact exists_mem_exactly_mul _ (exists_mem_afterOpening heading.kind)
  | opened heading => exact exists_mem_exactly_mul _ (exists_mem_afterOpening heading.kind)
  | memberLine _ members => exact exists_mem_atMember members
  | memberTyped _ _ _ => exact exists_mem_exactly_mul _ exists_mem_afterMember
  | memberNamed _ members => exact exists_mem_exactly_mul _ (exists_mem_atMember members)
  | methodLine _ methods => exact exists_mem_atMethod methods
  | methodTyped _ _ _ => exact exists_mem_exactly_mul _ exists_mem_parameters_mul
  | methodNamed _ _ _ => exact exists_mem_exactly_mul _ exists_mem_parameters_mul
  | listOpened _ _ _ => exact exists_mem_parameters_mul
  | parameter _ _ _ _ => exact exists_mem_afterParameter
  | comma _ _ _ _ => exact exists_mem_exactly_mul _ exists_mem_afterParameter
  | listClosed _ methods => exact exists_mem_exactly_mul _ (exists_mem_atMethod methods)
  | closed _ => exact exists_mem_afterStatement
  | finished => exact ⟨[], rfl⟩

/-- The beginnings of sentences are what can be read. -/
theorem viable_iff (place : Token → Span) (tokens : List Token) :
    Viable (tokens.map Token.kind) ↔
      ∃ last, tokens.foldlM (Phase.next? place) .fresh = some last := by
  constructor
  · rintro ⟨rest, sentence⟩
    obtain ⟨last, read, _⟩ := (append_mem_after place .fresh tokens rest).mp sentence
    exact ⟨last, read⟩
  · rintro ⟨last, read⟩
    obtain ⟨rest, member⟩ := exists_mem_after last
    exact ⟨rest, (append_mem_after place .fresh tokens rest).mpr ⟨last, read, member⟩⟩

end Grammar

end Idl
