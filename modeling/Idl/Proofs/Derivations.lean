/-
This file says which declarations a sequence of tokens spells. The grammar is taken once
more, this time with the tokens themselves: each of its rules says what the names, the
types and their places are, so that a derivation carries the declarations that it
stands for. Reading follows derivations: it reaches the end of every derivation with
exactly its declarations, in order, and it accepts nothing that has no derivation.
-/

import Idl.Proofs.Sentences

namespace Idl

open scoped Computability

namespace Grammar

/-! ### Derivations -/

/-- The tokens are those of the entries, one entry after the other. -/
inductive SpellsEach {Entry : Type} (spells : List Token → Entry → Prop) :
    List Token → List Entry → Prop where
  | nil : SpellsEach spells [] []
  | cons {first rest : List Token} {entry : Entry} {entries : List Entry}
      (head : spells first entry) (tail : SpellsEach spells rest entries) :
      SpellsEach spells (first ++ rest) (entry :: entries)

/-- The tokens of a member: its type, its name and a line feed. -/
inductive SpellsMember (place : Token → Span) : List Token → Member → Prop where
  | line {type name feed : Token} (typeKind : type.kind = .identifier)
      (nameKind : name.kind = .identifier) (feedKind : feed.kind = .newline) :
      SpellsMember place [type, name, feed] ⟨⟨type.text, place type⟩, name.text, place name⟩

/-- The tokens of a parameter that is not the first: a comma and its type. -/
inductive SpellsParameter (place : Token → Span) : List Token → TypeReference → Prop where
  | next {comma type : Token} (commaKind : comma.kind = .comma)
      (typeKind : type.kind = .identifier) :
      SpellsParameter place [comma, type] ⟨type.text, place type⟩

/-- The tokens of what a method takes. -/
inductive SpellsParameters (place : Token → Span) : List Token → List TypeReference → Prop where
  | empty : SpellsParameters place [] []
  | list {type : Token} {rest : List Token} {types : List TypeReference}
      (typeKind : type.kind = .identifier)
      (others : SpellsEach (SpellsParameter place) rest types) :
      SpellsParameters place (type :: rest) (⟨type.text, place type⟩ :: types)

/-- The tokens of a method: the type that it returns, its name, what it takes in parentheses, and
a line feed. -/
inductive SpellsMethod (place : Token → Span) : List Token → Method → Prop where
  | line {response name opening closing feed : Token} {list : List Token}
      {parameters : List TypeReference} (responseKind : response.kind = .identifier)
      (nameKind : name.kind = .identifier) (openingKind : opening.kind = .leftParenthesis)
      (takes : SpellsParameters place list parameters)
      (closingKind : closing.kind = .rightParenthesis) (feedKind : feed.kind = .newline) :
      SpellsMethod place ([response, name, opening] ++ (list ++ [closing, feed]))
        (.unattached name.text (place name) ⟨response.text, place response⟩ parameters)

/-- The tokens of a declaration. A service owns the methods of its body. -/
inductive SpellsStatement (place : Token → Span) : List Token → Declaration → Prop where
  | message {keyword name opening feed closing : Token} {body : List Token}
      {members : List Member} (keywordKind : keyword.kind = .message)
      (nameKind : name.kind = .identifier) (openingKind : opening.kind = .leftBrace)
      (feedKind : feed.kind = .newline) (entries : SpellsEach (SpellsMember place) body members)
      (nonempty : members ≠ []) (closingKind : closing.kind = .rightBrace) :
      SpellsStatement place ([keyword, name, opening, feed] ++ (body ++ [closing]))
        (.message ⟨name.text, members, place name⟩)
  | service {keyword name opening feed closing : Token} {body : List Token}
      {methods : List Method} (keywordKind : keyword.kind = .service)
      (nameKind : name.kind = .identifier) (openingKind : opening.kind = .leftBrace)
      (feedKind : feed.kind = .newline) (entries : SpellsEach (SpellsMethod place) body methods)
      (nonempty : methods ≠ []) (closingKind : closing.kind = .rightBrace) :
      SpellsStatement place ([keyword, name, opening, feed] ++ (body ++ [closing]))
        (.service (.ofMethods name.text (place name) methods))

/-- The tokens of a declaration with a line feed before it. -/
inductive SpellsNext (place : Token → Span) : List Token → Declaration → Prop where
  | feed {feed : Token} {tokens : List Token} {declaration : Declaration}
      (feedKind : feed.kind = .newline) (statement : SpellsStatement place tokens declaration) :
      SpellsNext place (feed :: tokens) declaration

/-- The tokens of what a file holds before its end, and the declarations in order. -/
inductive SpellsCode (place : Token → Span) : List Token → List Declaration → Prop where
  | empty : SpellsCode place [] []
  | statements {first rest : List Token} {declaration : Declaration}
      {declarations : List Declaration} (statement : SpellsStatement place first declaration)
      (others : SpellsEach (SpellsNext place) rest declarations) :
      SpellsCode place (first ++ rest) (declaration :: declarations)
  | feedStatements {feed : Token} {first rest : List Token} {declaration : Declaration}
      {declarations : List Declaration} (feedKind : feed.kind = .newline)
      (statement : SpellsStatement place first declaration)
      (others : SpellsEach (SpellsNext place) rest declarations) :
      SpellsCode place (feed :: (first ++ rest)) (declaration :: declarations)

/-! ### Parts of a derivation -/

theorem SpellsEach.exists_append {Entry : Type} {spells : List Token → Entry → Prop}
    {tokens : List Token} {first second : List Entry}
    (spelled : SpellsEach spells tokens (first ++ second)) :
    ∃ front rest, tokens = front ++ rest ∧ SpellsEach spells front first ∧
      SpellsEach spells rest second := by
  induction first generalizing tokens with
  | nil => exact ⟨[], tokens, rfl, .nil, spelled⟩
  | cons entry entries inductionHypothesis =>
    rw [List.cons_append] at spelled
    cases spelled with
    | @cons line others _ _ head tail =>
      obtain ⟨front, rest, rfl, before, after⟩ := inductionHypothesis tail
      exact ⟨line ++ front, rest, (List.append_assoc line front rest).symm, .cons head before,
        after⟩

theorem SpellsEach.exists_last {Entry : Type} {spells : List Token → Entry → Prop}
    {tokens : List Token} {entries : List Entry} {entry : Entry}
    (spelled : SpellsEach spells tokens (entries ++ [entry])) :
    ∃ front last, tokens = front ++ last ∧ SpellsEach spells front entries ∧ spells last entry := by
  obtain ⟨front, rest, rfl, before, after⟩ := spelled.exists_append
  cases after with
  | @cons last none _ _ head tail =>
    cases tail
    exact ⟨front, last, by rw [List.append_nil], before, head⟩

/-- The tokens of the first declarations come first. -/
theorem SpellsCode.exists_append {place : Token → Span} {tokens : List Token}
    {first second : List Declaration} (spelled : SpellsCode place tokens (first ++ second)) :
    ∃ front rest, tokens = front ++ rest ∧ SpellsCode place front first := by
  cases first with
  | nil => exact ⟨[], tokens, rfl, .empty⟩
  | cons declaration declarations =>
    rw [List.cons_append] at spelled
    cases spelled with
    | @statements line _ _ _ statement others =>
      obtain ⟨front, rest, rfl, before, _⟩ := others.exists_append
      exact ⟨line ++ front, rest, (List.append_assoc line front rest).symm,
        .statements statement before⟩
    | @feedStatements feed line _ _ _ feedKind statement others =>
      obtain ⟨front, rest, rfl, before, _⟩ := others.exists_append
      refine ⟨feed :: (line ++ front), rest, ?_, .feedStatements feedKind statement before⟩
      rw [List.cons_append, List.append_assoc]

/-- The tokens of the last declaration come last. -/
theorem SpellsCode.exists_last {place : Token → Span} {tokens : List Token}
    {declarations : List Declaration} {declaration : Declaration}
    (spelled : SpellsCode place tokens (declarations ++ [declaration])) :
    ∃ front last, tokens = front ++ last ∧ SpellsStatement place last declaration := by
  cases declarations with
  | nil =>
    cases spelled with
    | @statements line _ _ _ statement others =>
      cases others
      exact ⟨[], line, List.append_nil line, statement⟩
    | @feedStatements feed line _ _ _ _ statement others =>
      cases others
      exact ⟨[feed], line, by rw [List.append_nil, List.singleton_append], statement⟩
  | cons first others =>
    have split : ∀ {rest : List Token},
        SpellsEach (SpellsNext place) rest (others ++ [declaration]) →
          ∃ front last, rest = front ++ last ∧ SpellsStatement place last declaration := by
      intro rest each
      obtain ⟨front, _, rfl, _, ⟨_, statement⟩⟩ := each.exists_last
      exact ⟨front ++ [_], _, by rw [List.append_assoc, List.singleton_append], statement⟩
    rw [List.cons_append] at spelled
    cases spelled with
    | @statements line _ _ _ _ each =>
      obtain ⟨front, last, rfl, statement⟩ := split each
      exact ⟨line ++ front, last, (List.append_assoc line front last).symm, statement⟩
    | @feedStatements feed line _ _ _ _ _ each =>
      obtain ⟨front, last, rfl, statement⟩ := split each
      refine ⟨feed :: (line ++ front), last, ?_, statement⟩
      rw [List.cons_append, List.append_assoc]

/-- The second token of a declaration is its name, and the last one closes it. -/
theorem SpellsStatement.exists_name {place : Token → Span} {tokens : List Token}
    {declaration : Declaration} (spelled : SpellsStatement place tokens declaration) :
    ∃ keyword name body closing, tokens = keyword :: name :: (body ++ [closing]) ∧
      name.kind = .identifier ∧ closing.kind = .rightBrace ∧ declaration.name = name.text ∧
      declaration.span = place name := by
  cases spelled with
  | @message keyword name opening feed closing body _ _ nameKind _ _ _ _ closingKind =>
    exact ⟨keyword, name, opening :: feed :: body, closing, rfl, nameKind, closingKind, rfl, rfl⟩
  | @service keyword name opening feed closing body _ _ nameKind _ _ _ _ closingKind =>
    exact ⟨keyword, name, opening :: feed :: body, closing, rfl, nameKind, closingKind, rfl, rfl⟩

/-! ### Every sentence has a derivation -/

theorem map_kind_mem_mul {first second : Language TokenKind} {tokens : List Token} :
    tokens.map Token.kind ∈ first * second ↔
      ∃ before after, tokens = before ++ after ∧ before.map Token.kind ∈ first ∧
        after.map Token.kind ∈ second := by
  rw [Language.mem_mul]
  constructor
  · rintro ⟨firstKinds, firstMember, secondKinds, secondMember, joined⟩
    obtain ⟨before, after, rfl, rfl, rfl⟩ := List.map_eq_append_iff.mp joined.symm
    exact ⟨before, after, rfl, firstMember, secondMember⟩
  · rintro ⟨before, after, rfl, firstMember, secondMember⟩
    exact ⟨_, firstMember, _, secondMember, List.map_append.symm⟩

theorem map_kind_mem_exactly_nil {tokens : List Token}
    (member : tokens.map Token.kind ∈ exactly []) : tokens = [] :=
  List.map_eq_nil_iff.mp member

theorem map_kind_mem_exactly_cons {kind : TokenKind} {kinds : List TokenKind}
    {tokens : List Token} (member : tokens.map Token.kind ∈ exactly (kind :: kinds)) :
    ∃ token rest, tokens = token :: rest ∧ token.kind = kind ∧
      rest.map Token.kind ∈ exactly kinds := by
  obtain ⟨token, rest, rfl, same, others⟩ := List.map_eq_cons_iff.mp member
  exact ⟨token, rest, rfl, same, others⟩

/-- A repetition is derived turn by turn. -/
theorem exists_spellsEach {Entry : Type} {spells : List Token → Entry → Prop}
    {language : Language TokenKind}
    (spelled : ∀ tokens : List Token, tokens.map Token.kind ∈ language →
      ∃ entry, spells tokens entry)
    {tokens : List Token} (member : tokens.map Token.kind ∈ language∗) :
    ∃ entries, SpellsEach spells tokens entries := by
  obtain ⟨turns, joined, members⟩ := Language.mem_kstar.mp member
  induction turns generalizing tokens with
  | nil =>
    rw [List.flatten_nil, List.map_eq_nil_iff] at joined
    exact ⟨[], joined ▸ .nil⟩
  | cons turn rest inductionHypothesis =>
    rw [List.flatten_cons, List.map_eq_append_iff] at joined
    obtain ⟨first, others, rfl, same, later⟩ := joined
    obtain ⟨entry, head⟩ := spelled first (same ▸ members turn List.mem_cons_self)
    have laterMembers : ∀ word ∈ rest, word ∈ language := fun word inRest =>
      members word (List.mem_cons_of_mem _ inRest)
    obtain ⟨entries, tail⟩ := inductionHypothesis
      (later ▸ Language.join_mem_kstar laterMembers) later laterMembers
    exact ⟨entry :: entries, .cons head tail⟩

/-- A repetition with one turn at least is derived with one entry at least. -/
theorem exists_spellsEach_ne_nil {Entry : Type} {spells : List Token → Entry → Prop}
    {language : Language TokenKind}
    (spelled : ∀ tokens : List Token, tokens.map Token.kind ∈ language →
      ∃ entry, spells tokens entry)
    {tokens : List Token} (member : tokens.map Token.kind ∈ language * language∗) :
    ∃ entries, SpellsEach spells tokens entries ∧ entries ≠ [] := by
  obtain ⟨first, rest, rfl, firstMember, restMember⟩ := map_kind_mem_mul.mp member
  obtain ⟨entry, head⟩ := spelled first firstMember
  obtain ⟨entries, tail⟩ := exists_spellsEach spelled restMember
  exact ⟨entry :: entries, .cons head tail, List.cons_ne_nil _ _⟩

/-- A word of the grammar is spelled by one token for each of its kinds. -/
theorem exists_spellsMember (place : Token → Span) {tokens : List Token}
    (spelled : tokens.map Token.kind ∈ member) : ∃ entry, SpellsMember place tokens entry := by
  obtain ⟨type, _, rfl, typeKind, rest⟩ := map_kind_mem_exactly_cons spelled
  obtain ⟨name, _, rfl, nameKind, rest⟩ := map_kind_mem_exactly_cons rest
  obtain ⟨feed, _, rfl, feedKind, rest⟩ := map_kind_mem_exactly_cons rest
  cases map_kind_mem_exactly_nil rest
  exact ⟨_, .line typeKind nameKind feedKind⟩

theorem exists_spellsParameter (place : Token → Span) {tokens : List Token}
    (spelled : tokens.map Token.kind ∈ exactly [.comma, .identifier]) :
    ∃ type, SpellsParameter place tokens type := by
  obtain ⟨comma, _, rfl, commaKind, rest⟩ := map_kind_mem_exactly_cons spelled
  obtain ⟨type, _, rfl, typeKind, rest⟩ := map_kind_mem_exactly_cons rest
  cases map_kind_mem_exactly_nil rest
  exact ⟨_, .next commaKind typeKind⟩

theorem exists_spellsParameters (place : Token → Span) {tokens : List Token}
    (spelled : tokens.map Token.kind ∈ parameters) :
    ∃ types, SpellsParameters place tokens types := by
  rcases spelled with empty | list
  · cases List.map_eq_nil_iff.mp empty
    exact ⟨[], .empty⟩
  · obtain ⟨first, rest, rfl, firstMember, restMember⟩ := map_kind_mem_mul.mp list
    obtain ⟨type, _, rfl, typeKind, firstRest⟩ := map_kind_mem_exactly_cons firstMember
    cases map_kind_mem_exactly_nil firstRest
    obtain ⟨types, others⟩ :=
      exists_spellsEach (fun _ => exists_spellsParameter place) restMember
    exact ⟨_, .list typeKind others⟩

theorem exists_spellsMethod (place : Token → Span) {tokens : List Token}
    (spelled : tokens.map Token.kind ∈ method) : ∃ entry, SpellsMethod place tokens entry := by
  obtain ⟨start, rest, rfl, startMember, restMember⟩ := map_kind_mem_mul.mp spelled
  obtain ⟨response, _, rfl, responseKind, start⟩ := map_kind_mem_exactly_cons startMember
  obtain ⟨name, _, rfl, nameKind, start⟩ := map_kind_mem_exactly_cons start
  obtain ⟨opening, _, rfl, openingKind, start⟩ := map_kind_mem_exactly_cons start
  cases map_kind_mem_exactly_nil start
  obtain ⟨list, finish, rfl, listMember, finishMember⟩ := map_kind_mem_mul.mp restMember
  obtain ⟨types, takes⟩ := exists_spellsParameters place listMember
  obtain ⟨closing, _, rfl, closingKind, finish⟩ := map_kind_mem_exactly_cons finishMember
  obtain ⟨feed, _, rfl, feedKind, finish⟩ := map_kind_mem_exactly_cons finish
  cases map_kind_mem_exactly_nil finish
  exact ⟨_, .line responseKind nameKind openingKind takes closingKind feedKind⟩

/-- The four tokens before a body, the body and the brace behind it. -/
theorem exists_body {keyword : TokenKind} {line : Language TokenKind} {tokens : List Token}
    (spelled : tokens.map Token.kind ∈
      exactly [keyword, .identifier, .leftBrace, .newline] *
        ((line * line∗) * exactly [.rightBrace])) :
    ∃ word name opening feed body closing,
      tokens = [word, name, opening, feed] ++ (body ++ [closing]) ∧ word.kind = keyword ∧
        name.kind = .identifier ∧ opening.kind = .leftBrace ∧ feed.kind = .newline ∧
        body.map Token.kind ∈ line * line∗ ∧ closing.kind = .rightBrace := by
  obtain ⟨start, rest, rfl, startMember, restMember⟩ := map_kind_mem_mul.mp spelled
  obtain ⟨word, _, rfl, wordKind, start⟩ := map_kind_mem_exactly_cons startMember
  obtain ⟨name, _, rfl, nameKind, start⟩ := map_kind_mem_exactly_cons start
  obtain ⟨opening, _, rfl, openingKind, start⟩ := map_kind_mem_exactly_cons start
  obtain ⟨feed, _, rfl, feedKind, start⟩ := map_kind_mem_exactly_cons start
  cases map_kind_mem_exactly_nil start
  obtain ⟨body, finish, rfl, bodyMember, finishMember⟩ := map_kind_mem_mul.mp restMember
  obtain ⟨closing, _, rfl, closingKind, finish⟩ := map_kind_mem_exactly_cons finishMember
  cases map_kind_mem_exactly_nil finish
  exact ⟨word, name, opening, feed, body, closing, rfl, wordKind, nameKind, openingKind,
    feedKind, bodyMember, closingKind⟩

theorem exists_spellsStatement (place : Token → Span) {tokens : List Token}
    (spelled : tokens.map Token.kind ∈ statement) :
    ∃ declaration, SpellsStatement place tokens declaration := by
  rcases spelled with message | service
  · obtain ⟨keyword, name, opening, feed, body, closing, rfl, keywordKind, nameKind,
      openingKind, feedKind, bodyMember, closingKind⟩ := exists_body message
    obtain ⟨members, entries, nonempty⟩ :=
      exists_spellsEach_ne_nil (fun _ => exists_spellsMember place) bodyMember
    exact ⟨_, .message keywordKind nameKind openingKind feedKind entries nonempty closingKind⟩
  · obtain ⟨keyword, name, opening, feed, body, closing, rfl, keywordKind, nameKind,
      openingKind, feedKind, bodyMember, closingKind⟩ := exists_body service
    obtain ⟨methods, entries, nonempty⟩ :=
      exists_spellsEach_ne_nil (fun _ => exists_spellsMethod place) bodyMember
    exact ⟨_, .service keywordKind nameKind openingKind feedKind entries nonempty closingKind⟩

theorem exists_spellsNext (place : Token → Span) {tokens : List Token}
    (spelled : tokens.map Token.kind ∈ exactly [.newline] * statement) :
    ∃ declaration, SpellsNext place tokens declaration := by
  obtain ⟨first, rest, rfl, firstMember, restMember⟩ := map_kind_mem_mul.mp spelled
  obtain ⟨feed, _, rfl, feedKind, firstRest⟩ := map_kind_mem_exactly_cons firstMember
  cases map_kind_mem_exactly_nil firstRest
  obtain ⟨declaration, statement⟩ := exists_spellsStatement place restMember
  exact ⟨declaration, .feed feedKind statement⟩

theorem exists_spellsCode (place : Token → Span) {tokens : List Token}
    (spelled : tokens.map Token.kind ∈ code) :
    ∃ declarations, SpellsCode place tokens declarations := by
  have several : ∀ {tokens : List Token}, tokens.map Token.kind ∈ statements →
      ∃ first rest declaration declarations, tokens = first ++ rest ∧
        SpellsStatement place first declaration ∧
        SpellsEach (SpellsNext place) rest declarations := by
    intro tokens member
    obtain ⟨first, rest, rfl, firstMember, restMember⟩ := map_kind_mem_mul.mp member
    obtain ⟨declaration, statement⟩ := exists_spellsStatement place firstMember
    obtain ⟨declarations, others⟩ :=
      exists_spellsEach (fun _ => exists_spellsNext place) restMember
    exact ⟨first, rest, declaration, declarations, rfl, statement, others⟩
  rcases spelled with (empty | plain) | fed
  · cases List.map_eq_nil_iff.mp empty
    exact ⟨[], .empty⟩
  · obtain ⟨first, rest, declaration, declarations, rfl, statement, others⟩ := several plain
    exact ⟨_, .statements statement others⟩
  · obtain ⟨start, tokens, rfl, startMember, member⟩ := map_kind_mem_mul.mp fed
    obtain ⟨feed, _, rfl, feedKind, startRest⟩ := map_kind_mem_exactly_cons startMember
    cases map_kind_mem_exactly_nil startRest
    obtain ⟨first, rest, declaration, declarations, rfl, statement, others⟩ := several member
    rw [List.singleton_append]
    exact ⟨_, .feedStatements feedKind statement others⟩

end Grammar

/-! ### Progress through a file -/

/-- The declaration that has just been closed, if one has. -/
def Phase.closed? : Phase → Option Declaration
  | .closed declaration => some declaration
  | _ => none

theorem Phase.closed?_eq_some {phase : Phase} {declaration : Declaration}
    (closed : phase.closed? = some declaration) : phase = .closed declaration := by
  cases phase with
  | closed same => exact congrArg Phase.closed (Option.some.inj closed)
  | _ => exact nomatch closed

/-- How far a file has been read: the declarations that are behind, and the phase. -/
structure Progress where
  settled : List Declaration
  phase : Phase

namespace Progress

/-- Nothing has been read. -/
def start : Progress := ⟨[], .fresh⟩

/-- All declarations that have been closed. -/
def declared (progress : Progress) : List Declaration :=
  progress.settled ++ progress.phase.closed?.toList

/-- The progress after one more token, or nothing if it is refused. -/
def next? (place : Token → Span) (progress : Progress) (token : Token) : Option Progress :=
  (progress.phase.next? place token).map fun phase => ⟨progress.declared, phase⟩

/-- Reading the tokens leads from one progress to another. -/
def Reads (place : Token → Span) (before : Progress) (tokens : List Token)
    (after : Progress) : Prop :=
  tokens.foldlM (next? place) before = some after

variable {place : Token → Span}

theorem Reads.nil (progress : Progress) : Reads place progress [] progress := rfl

theorem reads_append_iff {before after : Progress} {first second : List Token} :
    Reads place before (first ++ second) after ↔
      ∃ middle, Reads place before first middle ∧ Reads place middle second after := by
  rw [Reads, List.foldlM_append]
  exact Option.bind_eq_some_iff

theorem Reads.append {before middle after : Progress} {first second : List Token}
    (head : Reads place before first middle) (tail : Reads place middle second after) :
    Reads place before (first ++ second) after :=
  reads_append_iff.mpr ⟨middle, head, tail⟩

theorem reads_singleton_iff {before after : Progress} {token : Token} :
    Reads place before [token] after ↔
      before.phase.next? place token = some after.phase ∧ after.settled = before.declared := by
  rw [Reads, List.foldlM_cons, next?]
  cases before.phase.next? place token with
  | none => simp
  | some phase =>
    obtain ⟨settled, other⟩ := after
    simp [Option.bind_eq_bind, eq_comm, and_comm]

/-- Reading is deterministic. -/
theorem Reads.unique {before first second : Progress} {tokens : List Token}
    (one : Reads place before tokens first) (other : Reads place before tokens second) :
    first = second :=
  Option.some.inj (one.symm.trans other)

/-- The phase goes its way whatever has been declared. -/
theorem foldlM_phase_eq_some_iff (before : Progress) {tokens : List Token} {last : Phase} :
    tokens.foldlM (Phase.next? place) before.phase = some last ↔
      ∃ after, Reads place before tokens after ∧ after.phase = last := by
  induction tokens generalizing before with
  | nil => simp [Reads]
  | cons token rest inductionHypothesis =>
    simp only [Reads, List.foldlM_cons, next?]
    cases before.phase.next? place token with
    | none => simp
    | some phase => exact inductionHypothesis ⟨before.declared, phase⟩

/-- The progress after some declarations and nothing else, the latest of them first. -/
def behind : List Declaration → Progress
  | [] => start
  | last :: earlier => ⟨earlier.reverse, .closed last⟩

@[simp] theorem declared_behind (declarations : List Declaration) :
    (behind declarations).declared = declarations.reverse := by
  cases declarations <;> simp [behind, start, declared, Phase.closed?]

end Progress

/-! ### Reading along a derivation -/

namespace Grammar

open Progress

variable {place : Token → Span}

/-- Reading one entry after the other puts each of them before the entries so far. -/
theorem SpellsEach.reads {Entry : Type} {spells : List Token → Entry → Prop}
    (state : List Entry → Progress)
    (step : ∀ {tokens : List Token} {entry : Entry} (entries : List Entry),
      spells tokens entry → Reads place (state entries) tokens (state (entry :: entries)))
    {tokens : List Token} {entries : List Entry} (spelled : SpellsEach spells tokens entries)
    (earlier : List Entry) :
    Reads place (state earlier) tokens (state (entries.reverse ++ earlier)) := by
  induction spelled generalizing earlier with
  | nil => exact .nil _
  | @cons first rest entry entries head tail inductionHypothesis =>
    rw [List.reverse_cons, List.append_assoc]
    exact (step earlier head).append (inductionHypothesis (entry :: earlier))

theorem SpellsMember.reads {tokens : List Token} {entry : Member}
    (spelled : SpellsMember place tokens entry) (settled : List Declaration) (heading : Heading)
    (members : List Member) :
    Reads place ⟨settled, .memberLine heading members⟩ tokens
      ⟨settled, .memberLine heading (entry :: members)⟩ := by
  cases spelled with
  | line typeKind nameKind feedKind =>
    simp [Reads, next?, declared, Phase.closed?, Phase.next?, typeKind, nameKind, feedKind]

theorem SpellsParameter.reads {tokens : List Token} {type : TypeReference}
    (spelled : SpellsParameter place tokens type) (settled : List Declaration)
    (heading : Heading) (methods : List Method) (method : MethodHeading)
    (types : List TypeReference) :
    Reads place ⟨settled, .parameter heading methods method types⟩ tokens
      ⟨settled, .parameter heading methods method (type :: types)⟩ := by
  cases spelled with
  | next commaKind typeKind =>
    simp [Reads, next?, declared, Phase.closed?, Phase.next?, commaKind, typeKind]

/-- The closing parenthesis finds all parameters read, in order. -/
theorem SpellsParameters.reads {tokens : List Token} {types : List TypeReference}
    (spelled : SpellsParameters place tokens types) {closing : Token}
    (closingKind : closing.kind = .rightParenthesis) (settled : List Declaration)
    (heading : Heading) (methods : List Method) (method : MethodHeading) :
    Reads place ⟨settled, .listOpened heading methods method⟩ (tokens ++ [closing])
      ⟨settled, .listClosed heading
        (.unattached method.name method.span method.response types :: methods)⟩ := by
  cases spelled with
  | empty =>
    simp [Reads, next?, declared, Phase.closed?, Phase.next?, Phase.method, closingKind]
  | @list type rest types typeKind others =>
    have first : Reads place ⟨settled, .listOpened heading methods method⟩ [type]
        ⟨settled, .parameter heading methods method [⟨type.text, place type⟩]⟩ := by
      simp [Reads, next?, declared, Phase.closed?, Phase.next?, typeKind]
    have middle := others.reads
      (fun types => ⟨settled, .parameter heading methods method types⟩)
      (fun types spelled => spelled.reads settled heading methods method types)
      [⟨type.text, place type⟩]
    have last : Reads place ⟨settled, .parameter heading methods method
          (types.reverse ++ [⟨type.text, place type⟩])⟩ [closing]
        ⟨settled, .listClosed heading (.unattached method.name method.span method.response
          (⟨type.text, place type⟩ :: types) :: methods)⟩ := by
      simp [Reads, next?, declared, Phase.closed?, Phase.next?, Phase.method, closingKind]
    exact (first.append middle).append last

theorem SpellsMethod.reads {tokens : List Token} {entry : Method}
    (spelled : SpellsMethod place tokens entry) (settled : List Declaration) (heading : Heading)
    (methods : List Method) :
    Reads place ⟨settled, .methodLine heading methods⟩ tokens
      ⟨settled, .methodLine heading (entry :: methods)⟩ := by
  cases spelled with
  | @line response name opening closing feed list parameters responseKind nameKind openingKind
      takes closingKind feedKind =>
    have first : Reads place ⟨settled, .methodLine heading methods⟩ [response, name, opening]
        ⟨settled, .listOpened heading methods
          ⟨⟨response.text, place response⟩, name.text, place name⟩⟩ := by
      simp [Reads, next?, declared, Phase.closed?, Phase.next?, responseKind, nameKind,
        openingKind]
    have middle := takes.reads closingKind settled heading methods
      ⟨⟨response.text, place response⟩, name.text, place name⟩
    have last : Reads place ⟨settled, .listClosed heading (.unattached name.text (place name)
          ⟨response.text, place response⟩ parameters :: methods)⟩ [feed]
        ⟨settled, .methodLine heading (.unattached name.text (place name)
          ⟨response.text, place response⟩ parameters :: methods)⟩ := by
      simp [Reads, next?, declared, Phase.closed?, Phase.next?, feedKind]
    rw [show list ++ [closing, feed] = list ++ [closing] ++ [feed] by simp]
    exact first.append (middle.append last)

/-- A declaration may open where nothing has been read and behind a line feed between
declarations. -/
theorem SpellsStatement.reads {tokens : List Token} {declaration : Declaration}
    (spelled : SpellsStatement place tokens declaration) {progress : Progress}
    (opens : progress.phase = .fresh ∨ progress.phase = .between) :
    Reads place progress tokens ⟨progress.settled, .closed declaration⟩ := by
  obtain ⟨settled, phase⟩ := progress
  cases spelled with
  | @message keyword name opening feed closing body members keywordKind nameKind openingKind
      feedKind entries nonempty closingKind =>
    let heading : Heading := ⟨.message, name.text, place name⟩
    have first : Reads place ⟨settled, phase⟩ [keyword, name, opening, feed]
        ⟨settled, .memberLine heading []⟩ := by
      rcases opens with rfl | rfl <;>
        simp [heading, Reads, next?, declared, Phase.closed?, Phase.next?, Phase.body,
          keywordKind, nameKind, openingKind, feedKind]
    have middle := entries.reads (fun members => ⟨settled, .memberLine heading members⟩)
      (fun members spelled => spelled.reads settled heading members) []
    have last : Reads place ⟨settled, .memberLine heading (members.reverse ++ [])⟩ [closing]
        ⟨settled, .closed (.message ⟨name.text, members, place name⟩)⟩ := by
      simp [heading, Reads, next?, declared, Phase.closed?, Phase.next?, closingKind, nonempty]
    exact first.append (middle.append last)
  | @service keyword name opening feed closing body methods keywordKind nameKind openingKind
      feedKind entries nonempty closingKind =>
    let heading : Heading := ⟨.service, name.text, place name⟩
    have first : Reads place ⟨settled, phase⟩ [keyword, name, opening, feed]
        ⟨settled, .methodLine heading []⟩ := by
      rcases opens with rfl | rfl <;>
        simp [heading, Reads, next?, declared, Phase.closed?, Phase.next?, Phase.body,
          keywordKind, nameKind, openingKind, feedKind]
    have middle := entries.reads (fun methods => ⟨settled, .methodLine heading methods⟩)
      (fun methods spelled => spelled.reads settled heading methods) []
    have last : Reads place ⟨settled, .methodLine heading (methods.reverse ++ [])⟩ [closing]
        ⟨settled, .closed (.service (.ofMethods name.text (place name) methods))⟩ := by
      simp [heading, Reads, next?, declared, Phase.closed?, Phase.next?, closingKind, nonempty]
    exact first.append (middle.append last)

theorem SpellsNext.reads {tokens : List Token} {declaration : Declaration}
    (spelled : SpellsNext place tokens declaration) (declarations : List Declaration) :
    Reads place (behind declarations) tokens (behind (declaration :: declarations)) := by
  cases spelled with
  | @feed feed tokens declaration feedKind statement =>
    have first : Reads place (behind declarations) [feed]
        ⟨declarations.reverse, .between⟩ := by
      rw [reads_singleton_iff, declared_behind]
      cases declarations <;> simp [behind, start, Phase.next?, feedKind]
    exact first.append (statement.reads (Or.inr rfl))

/-- Reading reaches the end of every derivation, and its declarations are all that is behind. -/
theorem SpellsCode.reads {tokens : List Token} {declarations : List Declaration}
    (spelled : SpellsCode place tokens declarations) :
    Reads place start tokens (behind declarations.reverse) := by
  have several : ∀ {rest : List Token} {later : List Declaration} (first : Declaration),
      SpellsEach (SpellsNext place) rest later →
        Reads place (behind [first]) rest (behind (first :: later).reverse) := by
    intro rest later first others
    rw [List.reverse_cons]
    exact others.reads behind (fun earlier spelled => spelled.reads earlier) [first]
  cases spelled with
  | empty => exact .nil start
  | @statements first rest declaration declarations statement others =>
    exact (statement.reads (Or.inl rfl)).append (several declaration others)
  | @feedStatements feed first rest declaration declarations feedKind statement others =>
    have opened : Reads place start (feed :: first) (behind [declaration]) :=
      (SpellsNext.feed feedKind statement).reads []
    exact opened.append (several declaration others)

/-! ### Derivations and sentences -/

/-- The beginnings of sentences are what can be read. -/
theorem viable_iff_reads (place : Token → Span) (tokens : List Token) :
    Viable (tokens.map Token.kind) ↔ ∃ progress, Reads place start tokens progress := by
  rw [viable_iff place]
  constructor
  · rintro ⟨last, read⟩
    obtain ⟨progress, reads, _⟩ := (foldlM_phase_eq_some_iff start).mp read
    exact ⟨progress, reads⟩
  · rintro ⟨progress, reads⟩
    exact ⟨progress.phase, (foldlM_phase_eq_some_iff start).mpr ⟨progress, reads, rfl⟩⟩

/-- A token that is refused makes the beginning of a sentence one of none. -/
theorem not_viable_of_refused {before : List Token} {progress : Progress} {token : Token}
    (reads : Reads place start before progress)
    (refused : progress.phase.next? place token = none) :
    ¬ Viable ((before ++ [token]).map Token.kind) := by
  rw [viable_iff_reads place]
  rintro ⟨after, all⟩
  obtain ⟨middle, first, last⟩ := reads_append_iff.mp all
  cases reads.unique first
  exact nomatch refused.symm.trans (reads_singleton_iff.mp last).1

/-- What a file may hold is what makes a sentence with the end of the file. -/
theorem append_mem_sentences_iff {kinds : List TokenKind} :
    kinds ++ [.endOfFile] ∈ sentences ↔ kinds ∈ code := by
  rw [sentences, Language.mem_mul]
  constructor
  · rintro ⟨before, member, _, rfl, joined⟩
    exact (List.append_inj_left' joined rfl) ▸ member
  · intro member
    exact ⟨kinds, member, _, rfl, rfl⟩

theorem next?_endOfFile {phase next : Phase} {final : Token} (finalKind : final.kind = .endOfFile)
    (accepted : phase.next? place final = some next) : next = .finished := by
  cases phase <;> simp_all [Phase.next?]

theorem next?_behind (declarations : List Declaration) {final : Token}
    (finalKind : final.kind = .endOfFile) :
    (behind declarations).phase.next? place final = some .finished := by
  cases declarations <;> simp [behind, start, Phase.next?, finalKind]

/-- What has been read where the end of the file is accepted is what a file may hold. -/
theorem map_kind_mem_code {tokens : List Token} {progress : Progress}
    (reads : Reads place start tokens progress) (final : Token) {next : Phase}
    (finalKind : final.kind = .endOfFile)
    (accepted : progress.phase.next? place final = some next) :
    tokens.map Token.kind ∈ code := by
  have ended : (tokens ++ [final]).foldlM (Phase.next? place) .fresh = some .finished := by
    refine (foldlM_phase_eq_some_iff start).mpr
      ⟨⟨progress.declared, .finished⟩, reads.append (reads_singleton_iff.mpr ?_), rfl⟩
    exact ⟨next?_endOfFile finalKind accepted ▸ accepted, rfl⟩
  have sentence : (tokens ++ [final]).map Token.kind ++ [] ∈ sentences :=
    (append_mem_after place .fresh (tokens ++ [final]) []).mpr ⟨.finished, ended, rfl⟩
  rwa [List.append_nil, List.map_append, List.map_singleton, finalKind,
    append_mem_sentences_iff] at sentence

/-- Where the end of the file is accepted, declarations are behind and nothing else. -/
theorem exists_eq_behind {tokens : List Token} {progress : Progress}
    (reads : Reads place start tokens progress) {final : Token} {next : Phase}
    (finalKind : final.kind = .endOfFile)
    (accepted : progress.phase.next? place final = some next) :
    ∃ declarations : List Declaration, progress = behind declarations.reverse := by
  obtain ⟨declarations, spelled⟩ :=
    exists_spellsCode place (map_kind_mem_code reads final finalKind accepted)
  exact ⟨declarations, reads.unique spelled.reads⟩

/-- Reading a sequence of tokens leaves behind just the declarations that it spells. -/
theorem reads_behind_iff {tokens : List Token} {declarations : List Declaration} :
    Reads place start tokens (behind declarations.reverse) ↔
      SpellsCode place tokens declarations := by
  refine ⟨fun reads => ?_, SpellsCode.reads⟩
  obtain ⟨others, spelled⟩ := exists_spellsCode place
    (map_kind_mem_code reads ⟨.endOfFile, "", 0, 0⟩ rfl (next?_behind _ rfl))
  have same := congrArg declared (reads.unique spelled.reads)
  rw [declared_behind, declared_behind, List.reverse_reverse, List.reverse_reverse] at same
  exact same ▸ spelled

/-- What has been read when a declaration is closed ends with that declaration. -/
theorem reads_closed_iff {tokens : List Token} {earlier : List Declaration}
    {declaration : Declaration} :
    Reads place start tokens ⟨earlier, .closed declaration⟩ ↔
      SpellsCode place tokens (earlier ++ [declaration]) := by
  rw [← reads_behind_iff, List.reverse_concat, behind, List.reverse_reverse]

/-- The sentences are the sequences of tokens that have a derivation. -/
theorem map_kind_mem_code_iff (place : Token → Span) (tokens : List Token) :
    tokens.map Token.kind ∈ code ↔ ∃ declarations, SpellsCode place tokens declarations := by
  refine ⟨exists_spellsCode place, ?_⟩
  rintro ⟨declarations, spelled⟩
  exact map_kind_mem_code spelled.reads ⟨.endOfFile, "", 0, 0⟩ rfl
    (next?_behind _ rfl)

/-- A sequence of tokens spells one list of declarations at most. -/
theorem SpellsCode.unique {tokens : List Token} {first second : List Declaration}
    (one : SpellsCode place tokens first) (other : SpellsCode place tokens second) :
    first = second := by
  have same := congrArg declared (one.reads.unique other.reads)
  rwa [declared_behind, declared_behind, List.reverse_reverse, List.reverse_reverse] at same

end Grammar

end Idl
