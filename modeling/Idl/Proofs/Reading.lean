/-
This file takes the reading of a source apart. What is read is the list of tokens that the
supply delivers, and a reader that has taken some of them stands where the grammar alone
stands, with the declarations that are behind it in its schema. So reading goes wrong at
one token only for one of two reasons: the declaration that was closed just before it
repeats a name, or the token itself cannot follow.
-/

import Idl.Declaration.Reader
import Idl.Proofs.Derivations
import Idl.Proofs.Registration

namespace Idl

/-! ### What a supply delivers -/

namespace TokenSupply

variable {Fault Position : Type} {supply : TokenSupply Fault Position} {position rest : Position}
  {token : Token} {fault : Fault}

theorem deliver_of_error (handed : supply.next position = .error fault) :
    supply.deliver position = ([], some fault) := by
  rw [deliver]
  split
  · next other same => rw [Except.error.inj (handed.symm.trans same)]
  · next same => cases handed.symm.trans same

theorem deliver_of_final (handed : supply.next position = .ok (token, rest))
    (final : token.kind = .endOfFile) : supply.deliver position = ([token], none) := by
  rw [deliver]
  split
  · next same => cases handed.symm.trans same
  · next other later same =>
    cases handed.symm.trans same
    rw [dif_pos final]

theorem deliver_of_ok (handed : supply.next position = .ok (token, rest))
    (goesOn : token.kind ≠ .endOfFile) :
    supply.deliver position = (token :: (supply.deliver rest).1, (supply.deliver rest).2) := by
  rw [deliver]
  split
  · next same => cases handed.symm.trans same
  · next other later same =>
    cases handed.symm.trans same
    rw [dif_neg goesOn]

/-- What holds where a supply fails and at the end of the file, and is kept by every other token,
holds everywhere. -/
theorem induction (supply : TokenSupply Fault Position) {motive : Position → Prop}
    (fails : ∀ {position : Position} {fault : Fault}, supply.next position = .error fault →
      motive position)
    (ends : ∀ {position rest : Position} {token : Token},
      supply.next position = .ok (token, rest) → token.kind = .endOfFile → motive position)
    (goesOn : ∀ {position rest : Position} {token : Token},
      supply.next position = .ok (token, rest) → token.kind ≠ .endOfFile → motive rest →
        motive position)
    (position : Position) : motive position := by
  induction bound : supply.remaining position using Nat.strongRecOn generalizing position with
  | ind count inductionHypothesis =>
    cases handed : supply.next position with
    | error fault => exact fails handed
    | ok pair =>
      obtain ⟨token, rest⟩ := pair
      by_cases final : token.kind = .endOfFile
      · exact ends handed final
      · refine goesOn handed final (inductionHypothesis _ ?_ rest rfl)
        exact bound ▸ supply.remaining_lt handed final

/-- What every token has when it is handed out, all delivered tokens have. -/
theorem forall_mem_deliver {property : Token → Prop}
    (kept : ∀ {position rest : Position} {token : Token},
      supply.next position = .ok (token, rest) → property token)
    (position : Position) : ∀ token ∈ (supply.deliver position).1, property token := by
  induction position using supply.induction with
  | fails failed => simp [deliver_of_error failed]
  | ends last final => simpa [deliver_of_final last final] using kept last
  | goesOn handed goesOn inductionHypothesis =>
    rw [deliver_of_ok handed goesOn]
    exact List.forall_mem_cons.mpr ⟨kept handed, inductionHypothesis⟩

/-- The end of the file comes last. -/
theorem deliver_shape (position : Position) :
    (∃ tokens final, supply.deliver position = (tokens ++ [final], none) ∧
      final.kind = .endOfFile ∧ ∀ token ∈ tokens, token.kind ≠ .endOfFile) ∨
    (∃ tokens fault, supply.deliver position = (tokens, some fault) ∧
      ∀ token ∈ tokens, token.kind ≠ .endOfFile) := by
  induction position using supply.induction with
  | fails failed => exact Or.inr ⟨[], _, deliver_of_error failed, nofun⟩
  | ends last final => exact Or.inl ⟨[], _, deliver_of_final last final, final, nofun⟩
  | goesOn handed goesOn inductionHypothesis =>
    rw [deliver_of_ok handed goesOn]
    rcases inductionHypothesis with ⟨tokens, final, later, finalKind, others⟩ |
      ⟨tokens, fault, later, others⟩
    · exact Or.inl ⟨_ :: tokens, final, by rw [later]; rfl, finalKind,
        List.forall_mem_cons.mpr ⟨goesOn, others⟩⟩
    · exact Or.inr ⟨_ :: tokens, fault, by rw [later],
        List.forall_mem_cons.mpr ⟨goesOn, others⟩⟩

/-- All tokens are known where no fault has ended them. -/
theorem tokens_eq_ok_iff {tokens : List Token} :
    supply.tokens position = .ok tokens ↔ supply.deliver position = (tokens, none) := by
  rw [TokenSupply.tokens]
  obtain ⟨delivered, fault⟩ := supply.deliver position
  cases fault <;> simp

end TokenSupply

/-! ### Reading is reading what is delivered -/

namespace Reader

/-- What is made of a reader that has taken all tokens. -/
def conclude (reader : Reader) (fault : Option Diagnostic) : Except CompileError Schema :=
  match fault with
  | none => .ok reader.schema
  | some diagnostic => .error (.lexical diagnostic)

/-- The reader after some tokens. -/
def feedAll (source : Source) (tokens : List Token) : Except CompileError Reader :=
  tokens.foldlM (feed source) start

variable {Position : Type} {source : Source}

/-- Tokens are taken one at a time, but to the same end as if they were all there. -/
theorem run_eq (supply : TokenSupply Diagnostic Position) (position : Position)
    (reader : Reader) :
    reader.run source supply position =
      ((supply.deliver position).1.foldlM (feed source) reader).bind
        (conclude · (supply.deliver position).2) := by
  induction position using supply.induction generalizing reader with
  | fails failed =>
    rw [TokenSupply.deliver_of_error failed, run]
    split
    · next same => cases failed.symm.trans same; rfl
    · next same => cases failed.symm.trans same
  | ends last final =>
    rw [TokenSupply.deliver_of_final last final, run]
    split
    · next same => cases last.symm.trans same
    · next same =>
      cases last.symm.trans same
      rw [List.foldlM_cons]
      cases reader.feed source _ with
      | error error => rfl
      | ok next => simp only [final, ↓reduceDIte]; rfl
  | goesOn handed goesOn inductionHypothesis =>
    rw [TokenSupply.deliver_of_ok handed goesOn, run]
    split
    · next same => cases handed.symm.trans same
    · next same =>
      cases handed.symm.trans same
      rw [List.foldlM_cons]
      cases reader.feed source _ with
      | error error => rfl
      | ok after =>
        simp only [goesOn, ↓reduceDIte]
        exact inductionHypothesis after

theorem parse_eq (source : Source) :
    source.parse = (feedAll source (source.supply.deliver source.start).1).bind
      (conclude · (source.supply.deliver source.start).2) :=
  run_eq source.supply source.start .start

/-! ### Where a reader stands -/

theorem settle_eq {reader : Reader} {settled : List Declaration}
    (declared : Schema.declareAll settled = .ok reader.schema) :
    reader.settle = Schema.declareAll (settled ++ reader.phase.closed?.toList) := by
  obtain ⟨schema, phase, previous⟩ := reader
  cases phase with
  | closed declaration =>
    simp only [Phase.closed?, Option.toList_some, Schema.declareAll_append_singleton, declared]
    rfl
  | _ => simpa [settle, Phase.closed?] using declared.symm

theorem feed_of_settle {reader : Reader} {token : Token} {schema : Schema} {phase : Phase}
    (settled : reader.settle = .ok schema)
    (accepted : reader.phase.next? source.tokenSpan token = some phase) :
    reader.feed source token = .ok ⟨schema, phase, some token⟩ := by
  rw [feed, settled, accepted]

/-- The report of a declaration that repeats a name. -/
def repeated (source : Source) (repetition : Repetition) : CompileError :=
  .semantic (source.diagnostic repetition.message repetition.span)

/-- The report of a token that cannot follow. -/
def refused (source : Source) (phase : Phase) (previous : Option Token) (token : Token) :
    CompileError :=
  .syntactic (source.diagnostic (phase.fault previous token).message (source.tokenSpan token))

theorem feed_of_repetition {reader : Reader} {token : Token} {repetition : Repetition}
    (settled : reader.settle = .error repetition) :
    reader.feed source token = .error (repeated source repetition) := by
  rw [feed, settled]
  rfl

theorem feed_of_refused {reader : Reader} {token : Token} {schema : Schema}
    (settled : reader.settle = .ok schema)
    (out : reader.phase.next? source.tokenSpan token = none) :
    reader.feed source token = .error (refused source reader.phase reader.previous token) := by
  rw [feed, settled, out]
  rfl

/-- The reader stands where the grammar alone stands after these tokens: in the same phase, with
the declarations that are behind in its schema, and with the last token in mind. -/
structure Follows (source : Source) (tokens : List Token) (progress : Progress)
    (reader : Reader) : Prop where
  reads : Progress.Reads source.tokenSpan .start tokens progress
  schema : Schema.declareAll progress.settled = .ok reader.schema
  phase : reader.phase = progress.phase
  previous : reader.previous = tokens.getLast?

theorem follows_start (source : Source) : Follows source [] .start start :=
  ⟨.nil _, rfl, rfl, rfl⟩

namespace Follows

variable {tokens : List Token} {progress : Progress} {reader : Reader}

theorem settle_eq (follows : Follows source tokens progress reader) :
    reader.settle = Schema.declareAll progress.declared := by
  rw [Reader.settle_eq follows.schema, follows.phase, Progress.declared]

/-- One more token takes the reader and the grammar on alike, as long as no name is repeated. -/
theorem feed (follows : Follows source tokens progress reader) {token : Token} {schema : Schema}
    {phase : Phase} (declared : Schema.declareAll progress.declared = .ok schema)
    (accepted : progress.phase.next? source.tokenSpan token = some phase) :
    reader.feed source token = .ok ⟨schema, phase, some token⟩ ∧
      Follows source (tokens ++ [token]) ⟨progress.declared, phase⟩
        ⟨schema, phase, some token⟩ := by
  refine ⟨feed_of_settle (follows.settle_eq.trans declared) (follows.phase ▸ accepted), ?_⟩
  exact ⟨follows.reads.append (Progress.reads_singleton_iff.mpr ⟨accepted, rfl⟩), declared, rfl,
    by rw [List.getLast?_concat]⟩

end Follows

theorem feedAll_append_singleton (source : Source) (tokens : List Token) (token : Token) :
    feedAll source (tokens ++ [token]) =
      (feedAll source tokens).bind fun reader => reader.feed source token := by
  rw [feedAll, List.foldlM_append]
  simp [feedAll]
  rfl

theorem feedAll_append_of_error {first : List Token} {error : CompileError}
    (failed : feedAll source first = .error error) (second : List Token) :
    feedAll source (first ++ second) = .error error := by
  rw [feedAll, List.foldlM_append]
  exact (congrArg (Except.bind · _) failed).trans rfl

/-- Reading gets through some tokens, or it goes wrong at one of them: there either the
declaration that was closed just before it repeats a name or the token cannot follow. -/
theorem feedAll_cases (source : Source) (tokens : List Token) :
    (∃ progress reader, feedAll source tokens = .ok reader ∧
      Follows source tokens progress reader) ∨
    (∃ before token after progress reader, tokens = before ++ token :: after ∧
      Follows source before progress reader ∧
      ((∃ repetition, Schema.declareAll progress.declared = .error repetition ∧
          feedAll source tokens = .error (repeated source repetition)) ∨
        (∃ schema, Schema.declareAll progress.declared = .ok schema ∧
          progress.phase.next? source.tokenSpan token = none ∧
          feedAll source tokens =
            .error (refused source progress.phase before.getLast? token)))) := by
  induction tokens using List.reverseRecOn with
  | nil => exact Or.inl ⟨.start, start, rfl, follows_start source⟩
  | append_singleton tokens token inductionHypothesis =>
    rw [feedAll_append_singleton]
    rcases inductionHypothesis with ⟨progress, reader, fed, follows⟩ |
      ⟨before, wrong, after, progress, reader, rfl, follows, cause⟩
    · rw [fed]
      cases declared : Schema.declareAll progress.declared with
      | error repetition =>
        exact Or.inr ⟨tokens, token, [], progress, reader, rfl, follows,
          Or.inl ⟨repetition, declared,
            feed_of_repetition (follows.settle_eq.trans declared)⟩⟩
      | ok schema =>
        cases accepted : progress.phase.next? source.tokenSpan token with
        | some phase =>
          obtain ⟨same, next⟩ := follows.feed declared accepted
          exact Or.inl ⟨_, _, same, next⟩
        | none =>
          refine Or.inr ⟨tokens, token, [], progress, reader, rfl, follows,
            Or.inr ⟨schema, declared, accepted, ?_⟩⟩
          rw [← follows.phase, ← follows.previous]
          exact feed_of_refused (follows.settle_eq.trans declared) (follows.phase ▸ accepted)
    · refine Or.inr ⟨before, wrong, after ++ [token], progress, reader, by simp, follows, ?_⟩
      rcases cause with ⟨repetition, declared, failed⟩ | ⟨schema, declared, out, failed⟩
      · exact Or.inl ⟨repetition, declared, by rw [failed]; rfl⟩
      · exact Or.inr ⟨schema, declared, out, by rw [failed]; rfl⟩

/-- Where the grammar gets to, the reader gets as well if no name behind is repeated. -/
theorem exists_follows {tokens : List Token} {progress : Progress}
    (reads : Progress.Reads source.tokenSpan .start tokens progress)
    (distinct : Schema.Distinct progress.settled) :
    ∃ reader, feedAll source tokens = .ok reader ∧ Follows source tokens progress reader := by
  induction tokens using List.reverseRecOn generalizing progress with
  | nil =>
    cases reads.unique (.nil _)
    exact ⟨start, rfl, follows_start source⟩
  | append_singleton tokens token inductionHypothesis =>
    obtain ⟨middle, before, last⟩ := Progress.reads_append_iff.mp reads
    obtain ⟨accepted, settled⟩ := Progress.reads_singleton_iff.mp last
    rw [settled] at distinct
    obtain ⟨schema, declared, _⟩ := Schema.exists_declareAll_of_distinct distinct
    have distinctBefore : Schema.Distinct middle.settled :=
      List.Pairwise.sublist (List.sublist_append_left _ _) distinct
    obtain ⟨reader, fed, follows⟩ := inductionHypothesis before distinctBefore
    obtain ⟨same, next⟩ := follows.feed declared accepted
    refine ⟨⟨schema, progress.phase, some token⟩, ?_, ?_⟩
    · rw [feedAll_append_singleton, fed]
      exact same
    · have same : progress = ⟨middle.declared, progress.phase⟩ :=
        congrArg (Progress.mk · progress.phase) settled
      rw [same]
      exact next

end Reader

open Grammar

namespace Source

variable {source : Source} {schema : Schema}

/-- The tokens of a source, up to its end or the first character that belongs to none. -/
def delivered (source : Source) : List Token := (source.supply.deliver source.start).1

/-- The report of the first character that belongs to no token, if there is one. -/
def fault? (source : Source) : Option Diagnostic := (source.supply.deliver source.start).2

theorem tokens_eq_ok_iff {tokens : List Token} :
    source.tokens = .ok tokens ↔ source.delivered = tokens ∧ source.fault? = none := by
  rw [Source.tokens, TokenSupply.tokens_eq_ok_iff, delivered, fault?, Prod.ext_iff]

/-- The end of the file is the last token where no fault has ended them. -/
theorem exists_final (faultless : source.fault? = none) :
    ∃ tokens final, source.delivered = tokens ++ [final] ∧ final.kind = .endOfFile := by
  rcases source.supply.deliver_shape source.start with
    ⟨tokens, final, shape, finalKind, _⟩ | ⟨tokens, fault, shape, _⟩
  · exact ⟨tokens, final, congrArg Prod.fst shape, finalKind⟩
  · exact nomatch faultless.symm.trans (congrArg Prod.snd shape)

/-- No token stands behind the end of the file. -/
theorem kind_ne_endOfFile {before after : List Token} {token earlier : Token}
    (delivered : source.delivered = before ++ token :: after) (member : earlier ∈ before) :
    earlier.kind ≠ .endOfFile := by
  rcases source.supply.deliver_shape source.start with
    ⟨tokens, final, shape, _, others⟩ | ⟨tokens, fault, shape, others⟩
  · have same : before ++ token :: after = tokens ++ [final] :=
      delivered.symm.trans (congrArg Prod.fst shape)
    have front := congrArg List.dropLast same
    rw [List.dropLast_concat, List.dropLast_append_of_ne_nil (List.cons_ne_nil _ _)] at front
    exact others earlier (front ▸ List.mem_append_left _ member)
  · have same : tokens = before ++ token :: after :=
      (congrArg Prod.fst shape).symm.trans delivered
    exact others earlier (same ▸ List.mem_append_left _ member)

/-- The tokens before one of them, and those up to it. -/
theorem take_delivered {before after : List Token} {token : Token}
    (delivered : source.delivered = before ++ token :: after) :
    source.delivered[before.length]? = some token ∧
      source.delivered.take before.length = before ∧
      source.delivered.take (before.length + 1) = before ++ [token] := by
  rw [delivered]
  refine ⟨by simp, List.take_left, ?_⟩
  rw [List.take_length_add_append, List.take_succ_cons, List.take_zero]

theorem parse_of_feedAll_ok {reader : Reader}
    (fed : Reader.feedAll source source.delivered = .ok reader) :
    source.parse = reader.conclude source.fault? := by
  rw [Reader.parse_eq]
  exact (congrArg (Except.bind · _) fed).trans rfl

theorem parse_of_feedAll_error {error : CompileError}
    (failed : Reader.feedAll source source.delivered = .error error) :
    source.parse = .error error := by
  rw [Reader.parse_eq]
  exact (congrArg (Except.bind · _) failed).trans rfl

/-- A source is read to its end, or its tokens are read as far as they go, or reading goes wrong at
one of them. -/
theorem parse_cases (source : Source) :
    (∃ progress reader, Reader.Follows source source.delivered progress reader ∧
      ((source.fault? = none ∧ source.parse = .ok reader.schema) ∨
        ∃ diagnostic, source.fault? = some diagnostic ∧
          source.parse = .error (.lexical diagnostic))) ∨
    (∃ before token after progress reader, source.delivered = before ++ token :: after ∧
      Reader.Follows source before progress reader ∧
      ((∃ repetition, Schema.declareAll progress.declared = .error repetition ∧
          source.parse = .error (Reader.repeated source repetition)) ∨
        (∃ schema, Schema.declareAll progress.declared = .ok schema ∧
          progress.phase.next? source.tokenSpan token = none ∧
          source.parse =
            .error (Reader.refused source progress.phase before.getLast? token)))) := by
  rcases Reader.feedAll_cases source source.delivered with ⟨progress, reader, fed, follows⟩ |
    ⟨before, token, after, progress, reader, shape, follows, cause⟩
  · have parsed := parse_of_feedAll_ok fed
    cases faults : source.fault? with
    | none =>
      rw [faults] at parsed
      exact Or.inl ⟨progress, reader, follows, Or.inl ⟨rfl, parsed⟩⟩
    | some diagnostic =>
      rw [faults] at parsed
      exact Or.inl ⟨progress, reader, follows, Or.inr ⟨diagnostic, rfl, parsed⟩⟩
  · refine Or.inr ⟨before, token, after, progress, reader, shape, follows, ?_⟩
    rcases cause with ⟨repetition, declared, failed⟩ | ⟨schema, declared, out, failed⟩
    · exact Or.inl ⟨repetition, declared, parse_of_feedAll_error failed⟩
    · exact Or.inr ⟨schema, declared, out, parse_of_feedAll_error failed⟩

/-- A source is read to its end if its tokens spell declarations without a repetition, and the
schema holds these. -/
theorem parse_eq_ok_iff :
    source.parse = .ok schema ↔
      ∃ tokens final declarations, source.tokens = .ok (tokens ++ [final]) ∧
        final.kind = .endOfFile ∧ SpellsCode source.tokenSpan tokens declarations ∧
        Schema.declareAll declarations = .ok schema := by
  constructor
  · intro parsed
    rcases parse_cases source with
      ⟨progress, reader, follows, ⟨faultless, same⟩ | ⟨_, _, failed⟩⟩ |
      ⟨_, _, _, _, _, _, _, ⟨_, _, failed⟩ | ⟨_, _, _, failed⟩⟩
    · cases same.symm.trans parsed
      obtain ⟨tokens, final, delivered, finalKind⟩ := exists_final faultless
      obtain ⟨middle, reads, last⟩ := Progress.reads_append_iff.mp (delivered ▸ follows.reads)
      obtain ⟨accepted, settled⟩ := Progress.reads_singleton_iff.mp last
      obtain ⟨declarations, rfl⟩ := exists_eq_behind reads finalKind accepted
      rw [Progress.declared_behind, List.reverse_reverse] at settled
      have declared := follows.schema
      rw [settled] at declared
      exact ⟨tokens, final, declarations, tokens_eq_ok_iff.mpr ⟨delivered, faultless⟩,
        finalKind, reads_behind_iff.mp reads, declared⟩
    all_goals exact nomatch failed.symm.trans parsed
  · rintro ⟨tokens, final, declarations, scanned, finalKind, spelled, declared⟩
    obtain ⟨delivered, faultless⟩ := tokens_eq_ok_iff.mp scanned
    have last : Progress.Reads source.tokenSpan (.behind declarations.reverse) [final]
        ⟨declarations, .finished⟩ := by
      refine Progress.reads_singleton_iff.mpr ⟨next?_behind _ finalKind, ?_⟩
      rw [Progress.declared_behind, List.reverse_reverse]
    have distinct := (Schema.declareAll_eq_ok_iff.mp declared).distinct
    obtain ⟨reader, fed, follows⟩ := Reader.exists_follows (spelled.reads.append last) distinct
    rw [parse_of_feedAll_ok (delivered ▸ fed), faultless]
    exact congrArg Except.ok (Except.ok.inj (follows.schema.symm.trans declared))

/-- The grammar and nothing else is accepted: reading succeeds just where the tokens are those of
the grammar and the names of each namespace are distinct. The schema then holds exactly the
declarations of the derivation, which every accepted sequence of tokens has. -/
theorem parse_accepts_grammar (source : Source) :
    (∀ tokens : List Token, tokens.map Token.kind ∈ code ↔
      ∃ declarations, SpellsCode source.tokenSpan tokens declarations) ∧
    ((∃ schema, source.parse = .ok schema) ↔
      ∃ tokens final declarations, source.tokens = .ok (tokens ++ [final]) ∧
        final.kind = .endOfFile ∧ tokens.map Token.kind ∈ code ∧
        SpellsCode source.tokenSpan tokens declarations ∧
        ((messagesOf declarations).map Message.name).Nodup ∧
        ((servicesOf declarations).map Service.name).Nodup) ∧
    ∀ schema : Schema, source.parse = .ok schema ↔
      ∃ tokens final declarations, source.tokens = .ok (tokens ++ [final]) ∧
        final.kind = .endOfFile ∧ SpellsCode source.tokenSpan tokens declarations ∧
        schema.messages.entries =
          (messagesOf declarations).map (fun message => (message.name, message)) ∧
        schema.services.entries =
          (servicesOf declarations).map (fun service => (service.name, service)) := by
  refine ⟨map_kind_mem_code_iff source.tokenSpan, ⟨?_, ?_⟩, fun schema => ⟨?_, ?_⟩⟩
  · rintro ⟨schema, parsed⟩
    obtain ⟨tokens, final, declarations, scanned, finalKind, spelled, declared⟩ :=
      parse_eq_ok_iff.mp parsed
    have distinct := (Schema.declareAll_eq_ok_iff.mp declared).distinct
    exact ⟨tokens, final, declarations, scanned, finalKind,
      (map_kind_mem_code_iff _ tokens).mpr ⟨declarations, spelled⟩, spelled,
      Schema.distinct_iff_nodup.mp distinct⟩
  · rintro ⟨tokens, final, declarations, scanned, finalKind, _, spelled, distinct⟩
    obtain ⟨schema, declared, _⟩ :=
      Schema.exists_declareAll_of_distinct (Schema.distinct_iff_nodup.mpr distinct)
    exact ⟨schema, parse_eq_ok_iff.mpr
      ⟨tokens, final, declarations, scanned, finalKind, spelled, declared⟩⟩
  · intro parsed
    obtain ⟨tokens, final, declarations, scanned, finalKind, spelled, declared⟩ :=
      parse_eq_ok_iff.mp parsed
    have lists := Schema.declareAll_eq_ok_iff.mp declared
    exact ⟨tokens, final, declarations, scanned, finalKind, spelled, lists.messages,
      lists.services⟩
  · rintro ⟨tokens, final, declarations, scanned, finalKind, spelled, messages, services⟩
    refine parse_eq_ok_iff.mpr ⟨tokens, final, declarations, scanned, finalKind, spelled, ?_⟩
    exact Schema.declareAll_eq_ok_iff.mpr ⟨messages, services⟩

end Source

end Idl
