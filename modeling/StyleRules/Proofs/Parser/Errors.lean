import StyleRules.Proofs.Grammar.Due
import StyleRules.Proofs.Grammar.Rules
import StyleRules.Proofs.Parser.Positions

/-!
# Where parsers fail

A parser runs along with the parts that are due (`TracksAt`): when it succeeds,
what was due in front of it is what is due behind it, token by token, and when it
fails, it blames the first token that is not due.  So an error of the rule parser
names the first token that makes the rule impossible to complete.
-/

namespace StyleRules
namespace Parser

open Due

/-! ## Cursors and what is due -/

theorem exists_remaining_eq_cons (cursor : Cursor) :
    ∃ rest, cursor.remaining = cursor.current :: rest := by
  have isFirst := Cursor.remaining_head? cursor
  cases remaining : cursor.remaining with
  | nil => simp [remaining] at isFirst
  | cons first rest =>
      rw [remaining, List.head?_cons, Option.some.injEq] at isFirst
      exact ⟨rest, by rw [isFirst]⟩

theorem stuckAt_of_opens
    {cursor : Cursor}
    {due : Due}
    {more : List Due}
    (dues : List Due)
    (notEnd : cursor.kind ≠ .endOfInput)
    (opened : due.opens cursor.current = some more) :
    stuckAt (due :: dues) cursor.remaining = stuckAt (more ++ dues) cursor.advance.remaining := by
  rw [Cursor.remaining_eq_cons notEnd, stuckAt, step, opened]

theorem stuckAt_of_isOptional
    {cursor : Cursor}
    {due : Due}
    (dues : List Due)
    (optional : due.isOptional = true)
    (closed : due.opens cursor.current = none) :
    stuckAt (due :: dues) cursor.remaining = stuckAt dues cursor.remaining := by
  obtain ⟨rest, remaining⟩ := exists_remaining_eq_cons cursor
  rw [remaining, stuckAt, stuckAt, step, closed]
  simp only [optional, if_true]

theorem stuckAt_of_required
    {cursor : Cursor}
    {due : Due}
    (dues : List Due)
    (required : due.isOptional = false)
    (closed : due.opens cursor.current = none) :
    ∃ rest, stuckAt (due :: dues) cursor.remaining = some (cursor.current :: rest) := by
  obtain ⟨rest, remaining⟩ := exists_remaining_eq_cons cursor
  refine ⟨rest, ?_⟩
  rw [remaining, stuckAt, step, closed]
  simp [required]

/-! ## Parsers along what is due -/

/-- From a cursor, a parser gets through the parts that are due in front of it and
leaves those behind it, or it fails at the first token that is not due. -/
structure TracksAt
    (cursor : Cursor)
    (before : List Due)
    (parser : Parser α)
    (after : List Due) :
    Prop where
  ok : ∀ value reached, parser cursor = .ok value reached ->
    stuckAt before cursor.remaining = stuckAt after reached.remaining
  error : ∀ error reached, parser cursor = .error error reached ->
    ∃ rest, stuckAt before cursor.remaining = some (error.token :: rest)

namespace TracksAt

variable
  {cursor : Cursor}
  {before between after dues : List Due}

theorem pure (value : α) :
    TracksAt cursor dues (pure value) dues := by
  constructor
  · intro _ reached answered
    obtain ⟨_, rfl⟩ := pure_eq_ok_iff.mp answered
    rfl
  · intro _ _ failed
    exact absurd failed (by simp)

theorem bind
    {first : Parser α}
    {next : α -> Parser β}
    (firstTracks : TracksAt cursor before first between)
    (nextTracks : ∀ value reached, first cursor = .ok value reached ->
      TracksAt reached between (next value) after) :
    TracksAt cursor before (first >>= next) after := by
  cases outcome : first cursor with
  | ok value reached =>
      have firstEquality := firstTracks.ok value reached outcome
      obtain ⟨nextOk, nextError⟩ := nextTracks value reached outcome
      constructor
      · rw [bind_of_eq_ok outcome, firstEquality]
        exact nextOk
      · rw [bind_of_eq_ok outcome, firstEquality]
        exact nextError
  | error error reached =>
      constructor
      · rw [bind_of_eq_error outcome]
        intro _ _ impossible
        exact absurd impossible (by simp)
      · rw [bind_of_eq_error outcome]
        intro _ _ failed
        cases failed
        exact firstTracks.error error reached outcome

theorem congr
    {parser other : Parser α}
    (same : parser cursor = other cursor)
    (tracks : TracksAt cursor before other after) :
    TracksAt cursor before parser after := by
  constructor
  · rw [same]
    exact tracks.ok
  · rw [same]
    exact tracks.error

theorem of_stuckAt_eq
    {parser : Parser α}
    (same : stuckAt before cursor.remaining = stuckAt between cursor.remaining)
    (tracks : TracksAt cursor between parser after) :
    TracksAt cursor before parser after := by
  constructor
  · rw [same]
    exact tracks.ok
  · rw [same]
    exact tracks.error

/-- Moving on from a token that opens the first part. -/
theorem advance
    {due : Due}
    {more : List Due}
    (notEnd : cursor.kind ≠ .endOfInput)
    (opened : due.opens cursor.current = some more) :
    TracksAt cursor (due :: dues) advance (more ++ dues) := by
  constructor
  · intro _ _ answered
    cases answered
    exact stuckAt_of_opens dues notEnd opened
  · intro _ _ failed
    exact absurd failed (by simp [Parser.advance])

/-- Failing at a token that does not open the part that is due. -/
theorem fails
    {due : Due}
    {parser : Parser α}
    {fault : ParseFault}
    {reached : Cursor}
    (required : due.isOptional = false)
    (closed : due.opens cursor.current = none)
    (failed : parser cursor = .error ⟨fault, cursor.current⟩ reached) :
    TracksAt cursor (due :: dues) parser after := by
  constructor
  · rw [failed]
    intro _ _ impossible
    exact absurd impossible (by simp)
  · rw [failed]
    intro _ _ same
    cases same
    exact stuckAt_of_required dues required closed

theorem expect
    {kind : TokenKind}
    (notEnd : kind ≠ .endOfInput) :
    TracksAt cursor (.single kind :: dues) (expect kind) dues := by
  by_cases isDue : cursor.kind = kind
  · have opened : (Due.single kind).opens cursor.current = some [] := if_pos isDue
    exact .congr (expect_of_kind_eq isDue) (advance (isDue ▸ notEnd) opened)
  · exact .fails rfl (if_neg isDue) (expect_of_kind_ne isDue)

theorem expectValue
    {kind : TokenKind}
    (notEnd : kind ≠ .endOfInput) :
    TracksAt cursor (.single kind :: dues) (expectValue kind) dues :=
  (expect notEnd).bind fun _ _ _ => .pure _

theorem expectKeyword
    (value : String) :
    TracksAt cursor (.keyword value :: dues) (expectLiteral .identifier value) dues := by
  by_cases isDue : cursor.current.kind = .identifier ∧ cursor.current.value = value
  · have notEnd : cursor.kind ≠ .endOfInput := by
      rw [Cursor.kind, isDue.1]
      decide
    have opened : (Due.keyword value).opens cursor.current = some [] := if_pos isDue
    have run : expectLiteral .identifier value cursor =
        (Parser.advance >>= fun _ => Pure.pure () : Parser Unit) cursor := by
      rw [expectLiteral_of_current isDue, advance_bind, pure_run]
    exact .congr run ((advance notEnd opened).bind fun _ _ _ => .pure _)
  · exact .fails rfl (if_neg isDue) (expectLiteral_of_not_current isDue)

/-- A part whose first token is of one kind, but is judged by its value, too: the
parser goes on with what the part demands or fails at that token. -/
theorem judge
    {kind : TokenKind}
    {due : Due}
    {next : Token -> Parser α}
    (notEnd : kind ≠ .endOfInput)
    (required : due.isOptional = false)
    (otherKinds : ∀ token, token.kind ≠ kind -> due.opens token = none)
    (verdict : ∀ token reached, token.kind = kind ->
      (∃ more, due.opens token = some more ∧ TracksAt reached (more ++ dues) (next token) after) ∨
        due.opens token = none ∧ ∃ fault, next token reached = .error ⟨fault, token⟩ reached) :
    TracksAt cursor (due :: dues) (Parser.expect kind >>= next) after := by
  by_cases isDue : cursor.kind = kind
  · have run : (Parser.expect kind >>= next) cursor = next cursor.current cursor.advance :=
      bind_of_eq_ok (expect_of_kind_eq isDue)
    rcases verdict cursor.current cursor.advance isDue with
      ⟨more, opened, tracks⟩ | ⟨closed, fault, failed⟩
    · apply TracksAt.congr (run.trans (advance_bind next cursor).symm)
      apply (advance (isDue ▸ notEnd) opened).bind
      intro token reached moved
      cases moved
      exact tracks
    · exact .fails required closed (run.trans failed)
  · exact .fails required (otherKinds _ isDue) (bind_of_eq_error (expect_of_kind_ne isDue))

/-- A clause that is read from the token of its kind on, or absent. -/
theorem clause
    {marker : TokenKind}
    {present : Token -> Parser α}
    {absent : α}
    {due : Due}
    {more : List Due}
    (notEnd : marker ≠ .endOfInput)
    (optional : due.isOptional = true)
    (opens : ∀ token, due.opens token = if token.kind = marker then some more else none)
    (inside : ∀ token cursor, TracksAt cursor (more ++ dues) (present token) dues) :
    TracksAt cursor (due :: dues)
      (kind >>= fun next =>
        if next = marker then Parser.advance >>= present else Pure.pure absent)
      dues := by
  by_cases isDue : cursor.kind = marker
  · refine .congr (by rw [kind_bind, if_pos isDue]) ?_
    have opened := (opens cursor.current).trans (if_pos isDue)
    exact (advance (isDue ▸ notEnd) opened).bind fun token reached _ => inside token reached
  · refine .congr (by rw [kind_bind, if_neg isDue]) ?_
    have closed := (opens cursor.current).trans (if_neg isDue)
    exact .of_stuckAt_eq (stuckAt_of_isOptional dues optional closed) (.pure absent)

/-- A repetition runs along with a loop: what is due in front of a round is due
behind it, too. -/
theorem many
    {test : Cursor -> Bool}
    {item : Parser α}
    (progress : Progresses test item)
    (ends : ∀ cursor, test cursor = false ->
      stuckAt before cursor.remaining = stuckAt after cursor.remaining)
    (round : ∀ cursor, test cursor = true -> TracksAt cursor before item before)
    (cursor : Cursor) :
    TracksAt cursor before (many test item) after := by
  induction aheadLength : cursor.ahead.length using Nat.strongRecOn generalizing cursor with
  | ind length inductionHypothesis =>
      cases holds : test cursor with
      | false =>
          apply TracksAt.congr (many_of_test_eq_false progress holds)
          exact .of_stuckAt_eq (ends cursor holds) (.pure [])
      | true =>
          apply TracksAt.congr (many_of_test_eq_true progress holds)
          apply (round cursor holds).bind
          intro first reached firstRead
          have shorter := progress cursor first reached holds firstRead
          have restTracks := inductionHypothesis _ (aheadLength ▸ shorter) reached rfl
          exact restTracks.bind fun _ _ _ => .pure _

end TracksAt

/-! ## Selectors -/

variable {dues : List Due}

theorem tracks_skipBlank (cursor : Cursor) :
    TracksAt cursor (.gap :: dues) skipBlank dues := by
  have shape : skipBlank =
      (kind >>= fun next => if next = .blank then advance >>= fun _ => pure () else pure ()) := rfl
  rw [shape]
  exact .clause (by decide) rfl (fun _ => rfl) fun _ _ => .pure ()

theorem tracks_styleId (cursor : Cursor) :
    TracksAt cursor (.styleId :: dues) styleId dues :=
  .clause (by decide) rfl (fun _ => rfl) fun _ _ => .pure _

theorem tracks_styleName (cursor : Cursor) :
    TracksAt cursor (.styleName :: dues) styleName dues := by
  apply TracksAt.clause (by decide) rfl (fun _ => rfl)
  intro _ _
  apply (TracksAt.expectKeyword "style-name").bind
  intro _ _ _
  apply (TracksAt.expect (by decide)).bind
  intro _ _ _
  apply (TracksAt.expectValue (by decide)).bind
  intro _ _ _
  apply (TracksAt.expect (by decide)).bind
  intro _ _ _
  exact .pure _

theorem tracks_listType (cursor : Cursor) :
    TracksAt cursor (.listType :: dues) listType dues := by
  refine .judge (by decide) rfl (fun token other => if_neg fun due => other due.1) ?_
  intro word reached wordKind
  by_cases isOrdered : word.value = "ordered-list"
  · refine .inl ⟨[], by simp [opens, wordKind, isOrdered], ?_⟩
    rw [if_pos isOrdered]
    exact .pure true
  · rw [if_neg isOrdered]
    by_cases isUnordered : word.value = "unordered-list"
    · refine .inl ⟨[], by simp [opens, wordKind, isUnordered], ?_⟩
      rw [if_pos isUnordered]
      exact .pure false
    · rw [if_neg isUnordered]
      exact .inr ⟨by simp [opens, isOrdered, isUnordered], _, rfl⟩

theorem tracks_levelIndex (cursor : Cursor) :
    TracksAt cursor (.numeral :: dues) (expect .integer >>= levelIndex) dues := by
  refine .judge (by decide) rfl (fun token other => if_neg fun due => other due.1) ?_
  intro numeral reached numeralKind
  rw [levelIndex]
  cases reads : Text.word? numeral.value with
  | none => exact .inr ⟨by simp [opens, reads], _, rfl⟩
  | some level =>
      by_cases isZero : level = 0
      · simp only [if_pos isZero]
        exact .inr ⟨by simp [opens, reads, isZero], _, rfl⟩
      · simp only [if_neg isZero]
        exact .inl ⟨[], by simp [opens, numeralKind, reads, isZero], .pure _⟩

theorem tracks_listLevel (cursor : Cursor) :
    TracksAt cursor (.level :: dues) listLevel dues := by
  apply TracksAt.clause (by decide) rfl (fun _ => rfl)
  intro _ _
  apply (tracks_listType _).bind
  intro _ _ _
  apply (TracksAt.expect (by decide)).bind
  intro _ _ _
  rw [← bind_assoc]
  apply (tracks_levelIndex _).bind
  intro _ _ _
  apply (TracksAt.expect (by decide)).bind
  intro _ _ _
  exact .pure _

theorem tracks_selector (cursor : Cursor) :
    TracksAt cursor (.selector :: dues) selector dues := by
  refine .judge (by decide) rfl (fun token other => if_neg other) ?_
  intro word reached wordKind
  have opened : Due.selector.opens word = clauses? word.value := if_pos wordKind
  rw [opened, clauses?]
  by_cases isP : word.value = "p"
  · simp only [if_pos isP]
    refine .inl ⟨_, rfl, ?_⟩
    apply TracksAt.bind _ fun _ _ _ => .pure _
    apply (tracks_styleId reached).bind
    intro _ _ _
    apply (tracks_styleName _).bind
    intro _ _ _
    apply (tracks_listLevel _).bind
    intro _ _ _
    exact .pure _
  · simp only [if_neg isP]
    by_cases isR : word.value = "r"
    · simp only [if_pos isR]
      refine .inl ⟨_, rfl, ?_⟩
      apply TracksAt.bind _ fun _ _ _ => .pure _
      apply (tracks_styleId reached).bind
      intro _ _ _
      apply (tracks_styleName _).bind
      intro _ _ _
      exact .pure _
    · simp only [if_neg isR]
      cases toggle? word.value with
      | none => exact .inr ⟨rfl, _, rfl⟩
      | some toggle => exact .inl ⟨[], rfl, .pure _⟩

/-! ## Paths -/

theorem tracks_tagNames (cursor : Cursor) :
    TracksAt cursor (.single .identifier :: .tagNames :: dues) tagNames dues := by
  apply (TracksAt.expectValue (by decide)).bind
  intro _ _ _
  apply TracksAt.bind _ fun _ _ _ => .pure _
  refine .many progresses_barName ?_ ?_ _
  · intro cursor noBar
    exact stuckAt_of_isOptional dues rfl (if_neg (atBar_eq_false_iff.mp noBar))
  · intro cursor due
    have isBar := atBar_eq_true_iff.mp due
    have notEnd : cursor.kind ≠ .endOfInput := by simp [isBar]
    have opened : Due.tagNames.opens cursor.current = some [.single .identifier, .tagNames] :=
      if_pos isBar
    apply (TracksAt.advance notEnd opened).bind
    intro _ _ _
    exact .expectValue (by decide)

theorem tracks_classNames (cursor : Cursor) :
    TracksAt cursor (.classNames :: dues) classNames dues := by
  refine .many progresses_nextClassName ?_ ?_ _
  · intro cursor noName
    exact stuckAt_of_isOptional dues rfl (if_neg (of_decide_eq_false noName))
  · intro cursor due
    have isName : cursor.kind = .className := of_decide_eq_true due
    have notEnd : cursor.kind ≠ .endOfInput := by simp [isName]
    have opened : Due.classNames.opens cursor.current = some [.classNames] := if_pos isName
    apply (TracksAt.advance notEnd opened).bind
    intro _ _ _
    exact .pure _

theorem tracks_isFresh (cursor : Cursor) :
    TracksAt cursor (.freshness :: dues) isFresh dues := by
  apply TracksAt.clause (by decide) rfl (fun _ => rfl)
  intro _ _
  apply (TracksAt.expectKeyword "fresh").bind
  intro _ _ _
  exact .pure true

theorem tracks_pathElement (cursor : Cursor) :
    TracksAt cursor (.single .identifier :: .tagNames :: .classNames :: .freshness :: dues)
      pathElement dues := by
  apply (tracks_tagNames _).bind
  intro _ _ _
  apply (tracks_classNames _).bind
  intro _ _ _
  apply (tracks_isFresh _).bind
  intro _ _ _
  exact .pure _

theorem tracks_descendant
    {cursor : Cursor}
    (due : atDescendant cursor = true) :
    TracksAt cursor (.steps :: dues) descendant (.steps :: dues) := by
  obtain ⟨isBlank, isSign⟩ := atDescendant_eq_true_iff.mp due
  have blankNotEnd : cursor.kind ≠ .endOfInput := by simp [isBlank]
  have signNotEnd : cursor.advance.kind ≠ .endOfInput := by simp [isSign]
  have blankOpens : Due.steps.opens cursor.current = some [.descendant] := if_pos isBlank
  have signOpens : Due.descendant.opens cursor.advance.current =
      some (.single .blank :: .single .identifier :: behindTagName) := if_pos isSign
  apply (TracksAt.advance blankNotEnd blankOpens).bind
  intro _ _ moved
  cases moved
  apply (TracksAt.advance signNotEnd signOpens).bind
  intro _ _ _
  apply (TracksAt.expect (by decide)).bind
  intro _ _ _
  exact tracks_pathElement _

/-- Where no further element begins, a blank run can only be the gap behind the
path. -/
theorem stuckAt_steps
    {cursor : Cursor}
    (ends : atDescendant cursor = false) :
    stuckAt (.steps :: dues) cursor.remaining = stuckAt (.gap :: dues) cursor.remaining := by
  by_cases isBlank : cursor.kind = .blank
  · have notEnd : cursor.kind ≠ .endOfInput := by simp [isBlank]
    have noSign : Due.descendant.opens cursor.advance.current = none := by
      apply if_neg
      intro isSign
      rw [atDescendant_eq_true_iff.mpr ⟨isBlank, isSign⟩] at ends
      exact absurd ends (by simp)
    have stepsOpen : Due.steps.opens cursor.current = some [.descendant] := if_pos isBlank
    have gapOpens : Due.gap.opens cursor.current = some [] := if_pos isBlank
    rw [stuckAt_of_opens dues notEnd stepsOpen, stuckAt_of_opens dues notEnd gapOpens]
    exact stuckAt_of_isOptional dues rfl noSign
  · have stepsClosed : Due.steps.opens cursor.current = none := if_neg isBlank
    have gapClosed : Due.gap.opens cursor.current = none := if_neg isBlank
    rw [stuckAt_of_isOptional dues rfl stepsClosed, stuckAt_of_isOptional dues rfl gapClosed]

/-- Before neither a bang nor an identifier, a path is empty: only the gap behind
it may be there. -/
theorem stuckAt_path
    {cursor : Cursor}
    (notBang : cursor.kind ≠ .bang)
    (notIdentifier : cursor.kind ≠ .identifier) :
    stuckAt (.path :: dues) cursor.remaining = stuckAt (.gap :: dues) cursor.remaining := by
  have notBang : cursor.current.kind ≠ .bang := notBang
  have notIdentifier : cursor.current.kind ≠ .identifier := notIdentifier
  by_cases isBlank : cursor.current.kind = .blank
  · have notEnd : cursor.kind ≠ .endOfInput := by simp [Cursor.kind, isBlank]
    have pathOpens : Due.path.opens cursor.current = some [] := by simp [opens, isBlank]
    have gapOpens : Due.gap.opens cursor.current = some [] := if_pos isBlank
    rw [stuckAt_of_opens dues notEnd pathOpens, stuckAt_of_opens dues notEnd gapOpens]
  · have pathClosed : Due.path.opens cursor.current = none := by
      simp [opens, notBang, notIdentifier, isBlank]
    have gapClosed : Due.gap.opens cursor.current = none := if_neg isBlank
    rw [stuckAt_of_isOptional dues rfl pathClosed, stuckAt_of_isOptional dues rfl gapClosed]

theorem tracks_path (cursor : Cursor) :
    TracksAt cursor (.path :: dues) path (.gap :: dues) := by
  by_cases isBang : cursor.kind = .bang
  · have run : path cursor = (advance >>= fun _ => pure .ignore : Parser HtmlPath) cursor := by
      rw [path, kind_bind, if_pos isBang]
    have notEnd : cursor.kind ≠ .endOfInput := by simp [isBang]
    have opened : Due.path.opens cursor.current = some [.gap] := if_pos isBang
    apply TracksAt.congr run
    apply (TracksAt.advance notEnd opened).bind
    intro _ _ _
    exact .pure _
  · by_cases isIdentifier : cursor.kind = .identifier
    · have run : path cursor = (pathElement >>= fun first =>
          many atDescendant descendant >>= fun others =>
            pure (.elements (first :: others)) : Parser HtmlPath) cursor := by
        rw [path, kind_bind, if_neg isBang, if_pos isIdentifier]
      have same : stuckAt (.path :: dues) cursor.remaining =
          stuckAt (.single .identifier :: (behindTagName ++ dues)) cursor.remaining := by
        have notEnd : cursor.kind ≠ .endOfInput := by simp [isIdentifier]
        have pathOpens : Due.path.opens cursor.current = some behindTagName :=
          (if_neg isBang).trans (if_pos isIdentifier)
        have nameOpens : (Due.single .identifier).opens cursor.current = some [] :=
          if_pos isIdentifier
        rw [stuckAt_of_opens dues notEnd pathOpens, stuckAt_of_opens _ notEnd nameOpens,
          List.nil_append]
      apply TracksAt.congr run
      apply TracksAt.of_stuckAt_eq same
      apply (tracks_pathElement cursor).bind
      intro _ _ _
      apply (TracksAt.many (descendant_eq ▸ progresses_descendant) (fun _ => stuckAt_steps)
        (fun _ => tracks_descendant) _).bind
      intro _ _ _
      exact .pure _
    · have run : path cursor = (pure (.elements []) : Parser HtmlPath) cursor := by
        rw [path, kind_bind, if_neg isBang, if_neg isIdentifier]
      apply TracksAt.congr run
      exact .of_stuckAt_eq (stuckAt_path isBang isIdentifier) (.pure _)

/-! ## Rules -/

theorem tracks_expectEnd (cursor : Cursor) :
    TracksAt cursor [.single .endOfInput] expectEnd [] := by
  by_cases atEnd : cursor.kind = .endOfInput
  · have run : expectEnd cursor = (pure () : Parser Unit) cursor := by
      rw [expectEnd, bind_of_eq_ok (expect_of_kind_eq atEnd), Cursor.advance_of_kind_eq atEnd]
    obtain ⟨rest, remaining⟩ := exists_remaining_eq_cons cursor
    have opened : (Due.single .endOfInput).opens cursor.current = some [] := if_pos atEnd
    apply TracksAt.congr run
    refine .of_stuckAt_eq ?_ (.pure ())
    rw [remaining, stuckAt, step, opened]
    simp
  · exact .fails rfl (if_neg atEnd) (bind_of_eq_error (expect_of_kind_ne atEnd))

/-- All that is due in a rule. -/
def ruleDues : List Due :=
  [.gap, .selector, .gap, .single .arrow, .gap, .path, .single .endOfInput]

theorem tracks_rule (cursor : Cursor) :
    TracksAt cursor ruleDues rule [] := by
  apply (tracks_skipBlank _).bind
  intro _ _ _
  apply (tracks_selector _).bind
  intro _ _ _
  apply (tracks_skipBlank _).bind
  intro _ _ _
  apply (TracksAt.expect (by decide)).bind
  intro _ _ _
  apply (tracks_skipBlank _).bind
  intro _ _ _
  apply (tracks_path _).bind
  intro _ _ _
  apply (tracks_skipBlank _).bind
  intro _ _ _
  apply (tracks_expectEnd _).bind
  intro _ _ _
  exact .pure _

theorem settled_ruleDues :
    Settled ruleDues :=
  .cons (by decide) (by decide) <|
    .cons (by decide) (by decide) <|
    .cons (by decide) (by decide) <|
    .cons (by decide) (by decide) <|
    .cons (by decide) (by decide) <|
    .cons (by decide) (by decide) .last

/-- Does the rule parser accept a sequence of tokens?  It does not if something that it takes
for granted fails to hold on the way. -/
def Accepts (tokens : List Token) : Prop :=
  ∃ value reached, Indexed.rule (Cursor.closed tokens) 0 = .ok value reached

/-- Is the token at a place the first one that makes the rule impossible to
complete?  The tokens in front of it begin an accepted sequence, in which the last
token alone is an end of the input, and no accepted sequence begins with the words
of these tokens and of that one. -/
structure FirstImpossibleAt (tokens : List Token) (place : Nat) : Prop where
  completable : ∃ more last, last.kind = .endOfInput ∧
    (∀ token ∈ tokens.take place ++ more, token.kind ≠ .endOfInput) ∧
    Accepts (tokens.take place ++ more ++ [last])
  impossible : ∀ others,
    (tokens.take (place + 1)).map Token.word <+: others.map Token.word -> ¬Accepts others

theorem exists_remaining_ofTokens (tokens : List Token) :
    ∃ more, (Cursor.ofTokens tokens).remaining = tokens ++ more := by
  rw [Cursor.remaining_ofTokens_eq_closed, Cursor.closed]
  split
  · exact ⟨[], by rw [List.append_nil]⟩
  · exact ⟨_, rfl⟩

theorem remaining_ofTokens
    {front : List Token}
    {last : Token}
    (isEnd : last.kind = .endOfInput) :
    (Cursor.ofTokens (front ++ [last])).remaining = front ++ [last] := by
  rw [Cursor.remaining_ofTokens_eq_closed, Cursor.closed, if_pos]
  rw [List.getLast?_concat, Option.map_some, isEnd]

theorem agrees_rule (tokens : List Token) :
    Agrees (Cursor.closed tokens) 0 (Indexed.rule (Cursor.closed tokens) 0)
      (rule (Cursor.ofTokens tokens)) :=
  Follows.rule 0 (Cursor.ofTokens tokens) (Cursor.remaining_ofTokens_eq_closed tokens)

/-- In a sequence that the rule parser accepts, every token is due. -/
theorem Accepts.stuckAt_eq_none
    {tokens : List Token}
    (accepts : Accepts tokens) :
    stuckAt ruleDues (Cursor.ofTokens tokens).remaining = none := by
  obtain ⟨value, reached, answered⟩ := accepts
  have agrees := agrees_rule tokens
  rw [answered] at agrees
  generalize outcome : rule (Cursor.ofTokens tokens) = result at agrees
  cases agrees
  case ok after moves stands =>
    rw [(tracks_rule (Cursor.ofTokens tokens)).ok value after outcome, stuckAt_nil]

/-- The rule parser accepts a sequence in which every token is due, if the quoted strings are
in quotes. -/
theorem accepts_of_stuckAt_eq_none
    {tokens : List Token}
    (wellQuoted : WellQuoted tokens)
    (notStuck : stuckAt ruleDues (Cursor.ofTokens tokens).remaining = none) :
    Accepts tokens := by
  have agrees := agrees_rule tokens
  generalize answered : Indexed.rule (Cursor.closed tokens) 0 = answer at agrees
  generalize outcome : rule (Cursor.ofTokens tokens) = result at agrees
  cases agrees
  case ok value reached after moves stands => exact ⟨value, reached, answered⟩
  case error error reached after moves stands =>
    obtain ⟨rest, stuck⟩ := (tracks_rule (Cursor.ofTokens tokens)).error error after outcome
    rw [notStuck] at stuck
    cases stuck
  case stuck notQuoted => exact absurd wellQuoted.closed notQuoted

/-- What completes a rule has its quoted strings in quotes. -/
theorem wellQuoted_completion (dues : List Due) :
    WellQuoted (completion dues) := by
  intro token member isQuoted
  obtain ⟨due, isDue, shortest⟩ := List.mem_filterMap.mp member
  cases due <;> simp only [shortest?, Option.some.injEq, reduceCtorEq] at shortest
  all_goals subst shortest
  case single kind =>
    obtain rfl : kind = .quoted := isQuoted
    exact ⟨[], by decide⟩
  all_goals cases isQuoted

/-- Tokens are completed by what is due behind them. -/
theorem accepts_completed
    {passed : List Token}
    {between : List Due}
    (wellQuoted : WellQuoted passed)
    (settled : Settled between)
    (runs : ∀ more, stuckAt ruleDues (passed ++ more) = stuckAt between more) :
    Accepts (passed ++ completion between) := by
  obtain ⟨front, completes, _⟩ := settled.exists_completion
  apply accepts_of_stuckAt_eq_none
  · exact List.forall_mem_append.mpr ⟨wellQuoted, wellQuoted_completion between⟩
  · rw [completes, ← List.append_assoc, remaining_ofTokens rfl, List.append_assoc, ← completes, runs]
    exact settled.stuckAt_completion

end Parser

namespace StyleRule

open Due StyleRules.Parser

theorem exists_stuckAt_of_parse
    {source : String}
    {error : ParseError}
    (failed : parse source = .error error) :
    ∃ rest, stuckAt ruleDues (Token.tokenize source) = some (error.token :: rest) := by
  have remaining : (Cursor.ofSource source).remaining = Token.tokenize source := by
    rw [Cursor.ofSource, Token.tokenize_eq_append, remaining_ofTokens rfl]
  have tracks := tracks_rule (Cursor.ofSource source)
  rw [parse, runOn] at failed
  split at failed
  · exact absurd failed (by simp)
  · rename_i found reached outcome
    cases failed
    rw [← remaining]
    exact tracks.error error reached outcome

/-- An error blames a token of its text. -/
theorem mem_tokenize_of_parse_eq_error
    {source : String}
    {error : ParseError}
    (failed : parse source = .error error) :
    error.token ∈ Token.tokenize source := by
  obtain ⟨rest, stuck⟩ := exists_stuckAt_of_parse failed
  obtain ⟨passed, token, behind, _, same, splits, _⟩ := exists_of_stuckAt settled_ruleDues stuck
  obtain ⟨rfl, _⟩ := List.cons.inj same
  rw [splits]
  exact List.mem_append_right passed List.mem_cons_self

theorem kind_ne_endOfInput_of_mem_passed
    {source : String}
    {passed behind : List Token}
    {token : Token}
    (splits : Token.tokenize source = passed ++ token :: behind) :
    ∀ word ∈ passed, word.kind ≠ .endOfInput := by
  intro word member
  rw [Token.tokenize_eq_append] at splits
  have wordsTake : passed = (Token.wordsOf source).take passed.length := by
    have lengths := congrArg List.length splits
    have taken := congrArg (List.take passed.length) splits
    simp only [List.length_append, List.length_cons, List.length_nil] at lengths
    rw [List.take_left, List.take_append_of_le_length (by omega)] at taken
    exact taken.symm
  rw [wordsTake] at member
  exact Token.kind_ne_endOfInput_of_mem_wordsOf (List.mem_of_mem_take member)

/-- A parse error names the first token that makes the rule impossible to
complete. -/
theorem parse_error_names_first_impossible
    {source : String}
    {error : ParseError}
    (failed : parse source = .error error) :
    ∃ place, (Token.tokenize source)[place]? = some error.token ∧
      FirstImpossibleAt (Token.tokenize source) place := by
  obtain ⟨rest, stuck⟩ := exists_stuckAt_of_parse failed
  obtain ⟨passed, token, behind, between, same, splits, settled, stops, runs⟩ :=
    exists_of_stuckAt settled_ruleDues stuck
  obtain ⟨rfl, _⟩ := List.cons.inj same
  obtain ⟨front, completes, frontWords⟩ := settled.exists_completion
  have passedTake : (Token.tokenize source).take passed.length = passed := by
    rw [splits, List.take_left]
  refine ⟨passed.length, by simp [splits], ⟨front, written .endOfInput "", rfl, ?_, ?_⟩, ?_⟩
  · rw [passedTake, List.forall_mem_append]
    exact ⟨kind_ne_endOfInput_of_mem_passed splits, frontWords⟩
  · have passedQuoted : WellQuoted passed := fun token member =>
      wellQuoted_tokenize source token (splits ▸ List.mem_append_left _ member)
    rw [passedTake, List.append_assoc, ← completes]
    exact accepts_completed passedQuoted settled runs
  · intro tokens begins accepts
    have stuckHere : stuckAt ruleDues (passed ++ [error.token]) ≠ none := by
      rw [runs, stuckAt, stops]
      simp
    have blamedTake : (Token.tokenize source).take (passed.length + 1) =
        passed ++ [error.token] := by
      rw [splits, List.take_length_add_append]
      rfl
    obtain ⟨more, remaining⟩ := exists_remaining_ofTokens tokens
    rw [blamedTake] at begins
    refine stuckAt_ne_none_of_prefix (begins.trans ?_) stuckHere accepts.stuckAt_eq_none
    rw [remaining, List.map_append]
    exact List.prefix_append _ _

/-- Behind the sign between two elements a blank run is due. -/
theorem first_impossible_without_blank :
    parse "p -> a >b" =
        .error ⟨.expected "whitespace", ⟨.identifier, "b", ⟨8, 9, 1, 9⟩⟩⟩ ∧
      ∃ place,
        (Token.tokenize "p -> a >b")[place]? = some ⟨.identifier, "b", ⟨8, 9, 1, 9⟩⟩ ∧
          FirstImpossibleAt (Token.tokenize "p -> a >b") place := by
  have failed : parse "p -> a >b" =
      .error ⟨.expected "whitespace", ⟨.identifier, "b", ⟨8, 9, 1, 9⟩⟩⟩ := by
    decide +kernel
  exact ⟨failed, parse_error_names_first_impossible failed⟩

end StyleRule
end StyleRules
