import StyleRules.Parser.Selector
import StyleRules.Proofs.Token.Shape

/-!
# What is due in a rule

While a rule is read from left to right, what may still come is a list of parts
that are due, one behind the other.  A token opens the first part that it fits;
parts in front of it are passed over, which only optional ones may be.  What a
part demands behind the token that opens it is due next.  Only the kind and the
value of a token count.

A sequence gets stuck at the first token that opens no part (`stuckAt`).  Up to
that token it can always be completed: the parts that are not optional are
written one behind the other (`completion`), and none of these tokens opens an
optional part in front of it.  This is kept up by every step (`Settled`).
-/

namespace StyleRules

/-- A part of a rule that is due. -/
inductive Due where
  /-- A token of some kind. -/
  | single (kind : TokenKind)
  /-- An identifier of some value. -/
  | keyword (value : String)
  /-- A word for a type of list. -/
  | listType
  /-- The numeral of a list level. -/
  | numeral
  | selector
  /-- A path and the gap behind it. -/
  | path
  | gap
  | styleId
  | styleName
  | level
  /-- More tag names behind the first one. -/
  | tagNames
  | classNames
  | freshness
  /-- More elements behind the first one, and the gap behind the path. -/
  | steps
  /-- One more element, whose sign has begun with a blank run. -/
  | descendant
  deriving DecidableEq

/-- What counts of a token, wherever it stands. -/
def Token.word (token : Token) : TokenKind × String :=
  (token.kind, token.value)

namespace Due

/-- The clauses that a selector with the given first word may have. -/
def clauses? (word : String) : Option (List Due) :=
  if word = "p" then some [.styleId, .styleName, .level]
  else if word = "r" then some [.styleId, .styleName]
  else (Parser.toggle? word).map fun _ => []

/-- What an element demands behind its first tag name. -/
def behindTagName : List Due :=
  [.tagNames, .classNames, .freshness, .steps]

/-- What is due behind a token that opens the part.  Other tokens do not open
it. -/
def opens : Due -> Token -> Option (List Due)
  | .single kind, token => if token.kind = kind then some [] else none
  | .keyword value, token =>
      if token.kind = .identifier ∧ token.value = value then some [] else none
  | .listType, token =>
      if token.kind = .identifier ∧
        (token.value = "ordered-list" ∨ token.value = "unordered-list") then some []
      else none
  | .numeral, token =>
      if token.kind = .integer ∧ (Text.word? token.value).any (· ≠ 0) then some [] else none
  | .selector, token => if token.kind = .identifier then clauses? token.value else none
  | .path, token =>
      if token.kind = .bang then some [.gap]
      else if token.kind = .identifier then some behindTagName
      else if token.kind = .blank then some []
      else none
  | .gap, token => if token.kind = .blank then some [] else none
  | .styleId, token => if token.kind = .className then some [] else none
  | .styleName, token =>
      if token.kind = .openBracket then
        some [.keyword "style-name", .single .equals, .single .quoted, .single .closeBracket]
      else none
  | .level, token =>
      if token.kind = .colon then
        some [.listType, .single .openParen, .numeral, .single .closeParen]
      else none
  | .tagNames, token =>
      if token.kind = .bar then some [.single .identifier, .tagNames] else none
  | .classNames, token => if token.kind = .className then some [.classNames] else none
  | .freshness, token => if token.kind = .colon then some [.keyword "fresh"] else none
  | .steps, token => if token.kind = .blank then some [.descendant] else none
  | .descendant, token =>
      if token.kind = .greaterThan then
        some (.single .blank :: .single .identifier :: behindTagName)
      else none

/-- May the part be left out? -/
def isOptional : Due -> Bool
  | .single _ | .keyword _ | .listType | .numeral | .selector => false
  | _ => true

/-- Some text of a kind, as short as it can be. -/
def sampleText : TokenKind -> String
  | .identifier | .className => "a"
  | .quoted => "\x27\x27"
  | .integer => "1"
  | .blank => " "
  | kind => String.ofList kind.mark

/-- A token of the given kind and value, wherever it stands. -/
def written (kind : TokenKind) (value : String) : Token :=
  ⟨kind, value, ⟨0, 0, 1, 1⟩⟩

/-- A token that opens a part and leaves nothing due behind it, if the part may
not be left out. -/
def shortest? : Due -> Option Token
  | .single kind => some (written kind (sampleText kind))
  | .keyword value => some (written .identifier value)
  | .listType => some (written .identifier "ordered-list")
  | .numeral => some (written .integer "1")
  | .selector => some (written .identifier "b")
  | _ => none

theorem opens_shortest?
    {due : Due}
    {token : Token}
    (shortest : due.shortest? = some token) :
    due.opens token = some [] := by
  cases due <;> simp only [shortest?, Option.some.injEq, reduceCtorEq] at shortest
  all_goals subst shortest
  · simp [opens, written]
  · simp [opens, written]
  · simp [opens, written]
  · have reads : Text.word? "1" = some 1 := by decide
    simp [opens, written, reads]
  · decide

theorem isOptional_of_shortest?_eq_none
    {due : Due}
    (noShortest : due.shortest? = none) :
    due.isOptional = true := by
  cases due <;> first | rfl | simp [shortest?] at noShortest

/-- The tokens that complete a rule when these parts are due: what may be left
out is left out. -/
def completion (dues : List Due) : List Token :=
  dues.filterMap shortest?

/-- Can the part be told from the tokens behind it?  What is optional must not be
opened by the first of them. -/
def FollowedBy (due : Due) (tokens : List Token) : Prop :=
  match due with
  | .single _ | .keyword _ | .listType | .numeral => True
  | .gap => ∀ token ∈ tokens.head?, token.kind ≠ .blank
  | _ => ∀ token ∈ tokens.head?, token.kind = .arrow ∨ token.kind = .endOfInput

instance (due : Due) (tokens : List Token) : Decidable (due.FollowedBy tokens) :=
  match due with
  | .single _ | .keyword _ | .listType | .numeral => inferInstanceAs (Decidable True)
  | .gap => inferInstanceAs (Decidable (∀ token ∈ tokens.head?, token.kind ≠ .blank))
  | .selector | .path | .styleId | .styleName | .level | .tagNames | .classNames | .freshness
  | .steps | .descendant =>
      inferInstanceAs (Decidable
        (∀ token ∈ tokens.head?, token.kind = .arrow ∨ token.kind = .endOfInput))

theorem opens_eq_none_of_followedBy
    {due : Due}
    {token : Token}
    {tokens : List Token}
    (optional : due.isOptional = true)
    (followed : due.FollowedBy (token :: tokens)) :
    due.opens token = none := by
  cases due with
  | single | keyword | listType | numeral | selector => simp [isOptional] at optional
  | gap =>
      have notBlank := followed token rfl
      simp [opens, notBlank]
  | _ => rcases followed token rfl with same | same <;> simp [opens, same]

/-- Parts that are due up to the end of the input, each one told from those
behind it. -/
inductive Settled : List Due -> Prop
  | last : Settled [.single .endOfInput]
  | cons {due dues} :
      due ≠ .single .endOfInput ->
      due.FollowedBy (completion dues) ->
      Settled dues ->
      Settled (due :: dues)

/-- What may stand behind a tag name is settled in front of the end of a path. -/
theorem Settled.behindTagName
    {dues : List Due}
    (settled : Settled dues)
    (ends : ∀ token ∈ (completion dues).head?, token.kind = .arrow ∨ token.kind = .endOfInput) :
    Settled (Due.behindTagName ++ dues) :=
  .cons (by decide) ends (.cons (by decide) ends (.cons (by decide) ends
    (.cons (by decide) ends settled)))

/-- What a part demands is settled in front of the other parts when the part
itself was. -/
theorem Settled.of_opens
    {due : Due}
    {dues more : List Due}
    {token : Token}
    (settled : Settled dues)
    (followed : due.FollowedBy (completion dues))
    (opened : due.opens token = some more) :
    Settled (more ++ dues) := by
  cases due with
  | single | keyword | listType | numeral | gap | styleId =>
      simp only [opens, Option.ite_none_right_eq_some, Option.some.injEq] at opened
      obtain ⟨_, rfl⟩ := opened
      exact settled
  | styleName | level | freshness =>
      simp only [opens, Option.ite_none_right_eq_some, Option.some.injEq] at opened
      obtain ⟨_, rfl⟩ := opened
      repeat refine .cons (by decide) trivial ?_
      exact settled
  | selector =>
      simp only [opens, clauses?, Option.ite_none_right_eq_some] at opened
      obtain ⟨_, opened⟩ := opened
      split at opened
      · obtain rfl := Option.some.inj opened
        exact .cons (by decide) followed (.cons (by decide) followed
          (.cons (by decide) followed settled))
      · split at opened
        · obtain rfl := Option.some.inj opened
          exact .cons (by decide) followed (.cons (by decide) followed settled)
        · obtain ⟨_, _, rfl⟩ := Option.map_eq_some_iff.mp opened
          exact settled
  | path =>
      simp only [opens] at opened
      split at opened
      · obtain rfl := Option.some.inj opened
        refine .cons (by decide) ?_ settled
        intro next isNext
        rcases followed next isNext with same | same <;> simp [same]
      · split at opened
        · obtain rfl := Option.some.inj opened
          exact settled.behindTagName followed
        · simp only [Option.ite_none_right_eq_some, Option.some.injEq] at opened
          obtain ⟨_, rfl⟩ := opened
          exact settled
  | tagNames =>
      simp only [opens, Option.ite_none_right_eq_some, Option.some.injEq] at opened
      obtain ⟨_, rfl⟩ := opened
      exact .cons (by decide) trivial (.cons (by decide) followed settled)
  | classNames | steps =>
      simp only [opens, Option.ite_none_right_eq_some, Option.some.injEq] at opened
      obtain ⟨_, rfl⟩ := opened
      exact .cons (by decide) followed settled
  | descendant =>
      simp only [opens, Option.ite_none_right_eq_some, Option.some.injEq] at opened
      obtain ⟨_, rfl⟩ := opened
      exact .cons (by decide) trivial (.cons (by decide) trivial (settled.behindTagName followed))

/-! ## Reading tokens against what is due -/

/-- What is due behind a token: the parts that the first part fitting it
demands, and those behind that part.  Once nothing is due, anything may come. -/
def step : List Due -> Token -> Option (List Due)
  | [], _ => some []
  | due :: dues, token =>
      match due.opens token with
      | some more => some (more ++ dues)
      | none => if due.isOptional then step dues token else none

/-- The tokens from the first one on that is not due, if there is such a
token. -/
def stuckAt : List Due -> List Token -> Option (List Token)
  | _, [] => none
  | dues, token :: tokens =>
      match step dues token with
      | some next => stuckAt next tokens
      | none => some (token :: tokens)

@[simp] theorem stuckAt_nil (tokens : List Token) :
    stuckAt [] tokens = none := by
  induction tokens with
  | nil => rfl
  | cons token tokens inductionHypothesis => exact inductionHypothesis

theorem opens_congr
    {token other : Token}
    (due : Due)
    (same : token.word = other.word) :
    due.opens token = due.opens other := by
  obtain ⟨sameKind, sameValue⟩ := Prod.mk.inj same
  cases due <;> simp only [opens, sameKind, sameValue]

theorem step_congr
    {token other : Token}
    (dues : List Due)
    (same : token.word = other.word) :
    step dues token = step dues other := by
  induction dues with
  | nil => rfl
  | cons due dues inductionHypothesis =>
      rw [step, step, opens_congr due same, inductionHypothesis]

/-- A sequence that begins with the words of another one gets stuck where that
one does, if not before. -/
theorem stuckAt_ne_none_of_prefix
    {dues : List Due}
    {tokens others : List Token}
    (begins : tokens.map Token.word <+: others.map Token.word)
    (stuck : stuckAt dues tokens ≠ none) :
    stuckAt dues others ≠ none := by
  induction tokens generalizing dues others with
  | nil => exact absurd rfl stuck
  | cons token tokens inductionHypothesis =>
      cases others with
      | nil => simp at begins
      | cons other others =>
          rw [List.map_cons, List.map_cons, List.cons_prefix_cons] at begins
          rw [stuckAt, step_congr dues begins.1] at stuck
          rw [stuckAt]
          split
          · rename_i next stepped
            rw [stepped] at stuck
            exact inductionHypothesis begins.2 stuck
          · simp

theorem Settled.of_step
    {dues next : List Due}
    {token : Token}
    (settled : Settled dues)
    (stepped : step dues token = some next) :
    next = [] ∨ Settled next := by
  induction settled with
  | last =>
      simp only [step, opens, isOptional] at stepped
      split at stepped
      · rename_i opened
        simp only [Option.ite_none_right_eq_some, Option.some.injEq] at opened stepped
        obtain ⟨_, rfl⟩ := opened
        exact .inl stepped.symm
      · exact absurd stepped (by simp)
  | @cons due dues notEnd followed settled inductionHypothesis =>
      rw [step] at stepped
      split at stepped
      · rename_i more opened
        obtain rfl := Option.some.inj stepped
        exact .inr (settled.of_opens followed opened)
      · split at stepped
        · exact inductionHypothesis stepped
        · exact absurd stepped (by simp)

theorem kind_shortest?_ne_endOfInput
    {due : Due}
    {token : Token}
    (notEnd : due ≠ .single .endOfInput)
    (shortest : due.shortest? = some token) :
    token.kind ≠ .endOfInput := by
  cases due <;> simp only [shortest?, Option.some.injEq, reduceCtorEq] at shortest
  all_goals subst shortest
  · simpa [written] using notEnd
  all_goals simp [written]

/-- What completes a rule ends with the end of the input, its only one. -/
theorem Settled.exists_completion
    {dues : List Due}
    (settled : Settled dues) :
    ∃ front, completion dues = front ++ [written .endOfInput ""] ∧
      ∀ token ∈ front, token.kind ≠ .endOfInput := by
  induction settled with
  | last => exact ⟨[], rfl, by simp⟩
  | @cons due dues notEnd followed settled inductionHypothesis =>
      obtain ⟨front, completes, frontWords⟩ := inductionHypothesis
      cases shortest : due.shortest? with
      | none => exact ⟨front, by simpa [completion, shortest] using completes, frontWords⟩
      | some token =>
          refine ⟨token :: front, by simpa [completion, shortest] using completes, ?_⟩
          rw [List.forall_mem_cons]
          exact ⟨kind_shortest?_ne_endOfInput notEnd shortest, frontWords⟩

/-- What completes a rule does not get stuck. -/
theorem Settled.stuckAt_completion
    {dues : List Due}
    (settled : Settled dues) :
    stuckAt dues (completion dues) = none := by
  induction settled with
  | last => decide
  | @cons due dues notEnd followed settled inductionHypothesis =>
      cases shortest : due.shortest? with
      | some token =>
          have completes : completion (due :: dues) = token :: completion dues := by
            simp [completion, shortest]
          rw [completes, stuckAt, step, opens_shortest? shortest]
          exact inductionHypothesis
      | none =>
          have completes : completion (due :: dues) = completion dues := by
            simp [completion, shortest]
          obtain ⟨front, endsRule, _⟩ := settled.exists_completion
          cases first : completion dues with
          | nil => simp [first] at endsRule
          | cons token tokens =>
              -- The optional part is passed over: the first token does not open it.
              have optional := isOptional_of_shortest?_eq_none shortest
              rw [first] at followed inductionHypothesis
              rw [completes, first, stuckAt, step,
                opens_eq_none_of_followedBy optional followed]
              simp only [optional, if_true]
              rwa [stuckAt] at inductionHypothesis

/-- Up to the token at which a sequence gets stuck, it reads parts that are due
one behind the other, whatever follows. -/
theorem exists_of_stuckAt
    {dues : List Due}
    {tokens rest : List Token}
    (settled : Settled dues)
    (stuck : stuckAt dues tokens = some rest) :
    ∃ passed token behind between, rest = token :: behind ∧ tokens = passed ++ token :: behind ∧
      Settled between ∧ step between token = none ∧
      ∀ more, stuckAt dues (passed ++ more) = stuckAt between more := by
  induction tokens generalizing dues with
  | nil => exact absurd stuck (by simp [stuckAt])
  | cons token tokens inductionHypothesis =>
      rw [stuckAt] at stuck
      split at stuck
      · rename_i next stepped
        rcases settled.of_step stepped with rfl | nextSettled
        · rw [stuckAt_nil] at stuck
          exact absurd stuck (by simp)
        · obtain ⟨passed, found, behind, between, restEquality, rfl, betweenSettled, stops, runs⟩ :=
            inductionHypothesis nextSettled stuck
          refine ⟨token :: passed, found, behind, between, restEquality, rfl, betweenSettled, stops,
            ?_⟩
          intro more
          rw [List.cons_append, stuckAt, stepped]
          exact runs more
      · rename_i stops
        obtain rfl := Option.some.inj stuck
        exact ⟨[], token, tokens, dues, rfl, rfl, settled, stops, fun _ => rfl⟩

end Due
end StyleRules
