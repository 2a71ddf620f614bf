import StyleRules.Proofs.StyleMap.Spelling

/-!
# The built-in rules are rules

Every line of the built-in text is blank, a comment or a rule, and none of its rules is
for a toggle (`isToggle_of_mem_builtinRules`).  So the built-in rules are registered behind
any others without a fault (`Builder.registerSource_builtinText`).
-/

namespace StyleRules

/-- Does the selector stand for formatting that is on or off? -/
def Selector.isToggle : Selector -> Bool
  | .toggle _ => true
  | _ => false

namespace StyleMap

/-- The rule that characters are read as. -/
def ruleOfChars? (cs : List Char) : Option StyleRule :=
  match Parser.rule (Cursor.ofTokens (Token.place .start (Lexeme.lexemes cs))) with
  | .ok rule _ => some rule
  | .error _ _ => none

theorem parse_ofList_of_ruleOfChars?
    {cs : List Char}
    {rule : StyleRule}
    (reads : ruleOfChars? cs = some rule) :
    StyleRule.parse (String.ofList cs) = .ok rule := by
  rw [StyleRule.parse, Parser.runOn, Cursor.ofSource, Token.tokenize, String.toList_ofList]
  unfold ruleOfChars? at reads
  split at reads
  · rename_i same
    cases reads
    rw [same]
  · cases reads

/-- Do characters on a line hold a rule, rather than a comment or nothing? -/
def charsHoldRule (cs : List Char) : Bool :=
  match Text.trimChars cs with
  | [] => false
  | c :: _ => c != '#'

/-- Are the characters a line without an ending, which says nothing or is a rule that is
not for a toggle? -/
def isBuiltinLine (cs : List Char) : Bool :=
  !cs.contains '\n' && cs.getLast? != some '\r' &&
    (!charsHoldRule cs || (ruleOfChars? cs).any fun rule => !rule.selector.isToggle)

/-- The rule on a line, if it holds one. -/
def ruleOnLine? (cs : List Char) : Option StyleRule :=
  if charsHoldRule cs then ruleOfChars? cs else none

/-- The built-in rules, in order. -/
def builtinRules : List StyleRule :=
  (builtinLines.map String.toList).filterMap ruleOnLine?

theorem isBuiltinLine_of_mem_builtinLines :
    ∀ text ∈ builtinLines, isBuiltinLine text.toList = true := by
  have ofChars : ∀ cs, isBuiltinLine cs = true ->
      isBuiltinLine (String.ofList cs).toList = true := by
    intro cs isLine
    rwa [String.toList_ofList]
  -- The lines are evaluated one by one, from their characters; the whole text is too long.
  simp only [builtinLines, List.forall_mem_cons]
  and_intros
  all_goals first | exact ofChars _ (by decide +kernel) | exact List.forall_mem_nil _

/-- Lines with their numbers, which begin behind the given one. -/
def Line.numberedFrom : Nat -> List (List Char) -> List Line
  | _, [] => []
  | number, cs :: texts => ⟨number + 1, String.ofList cs⟩ :: numberedFrom (number + 1) texts

theorem Line.ofSource_eq (source : String) :
    ofSource source = numberedFrom 0 (Text.lines source.toList) := by
  rw [ofSource]
  generalize 0 = number
  induction Text.lines source.toList generalizing number with
  | nil => rfl
  | cons cs texts inductionHypothesis =>
      rw [List.zipIdx_cons, List.map_cons, inductionHypothesis, numberedFrom]

theorem Line.holdsRule_ofList (number : Nat) (cs : List Char) :
    (⟨number, String.ofList cs⟩ : Line).holdsRule = charsHoldRule cs := by
  rw [holdsRule, String.toList_ofList]
  rfl

/-- A line of the built-in text holds no rule, or one that is not for a toggle. -/
theorem ruleOnLine?_of_isBuiltinLine
    {cs : List Char}
    (isLine : isBuiltinLine cs = true) :
    charsHoldRule cs = false ∧ ruleOnLine? cs = none ∨
      ∃ rule, charsHoldRule cs = true ∧ ruleOfChars? cs = some rule ∧
        ruleOnLine? cs = some rule ∧ rule.selector.isToggle = false := by
  simp only [isBuiltinLine, Bool.and_eq_true, Bool.or_eq_true, Bool.not_eq_true',
    Option.any_eq_true] at isLine
  cases holdsRule : charsHoldRule cs with
  | false => exact .inl ⟨rfl, by simp [ruleOnLine?, holdsRule]⟩
  | true =>
      rw [holdsRule] at isLine
      obtain ⟨rule, reads, noToggle⟩ := isLine.2.resolve_left nofun
      exact .inr ⟨rule, rfl, reads, by rw [ruleOnLine?, if_pos holdsRule, reads], noToggle⟩

theorem map_parse_numberedFrom
    {texts : List (List Char)}
    (areLines : ∀ cs ∈ texts, isBuiltinLine cs = true)
    (number : Nat) :
    ((Line.numberedFrom number texts).filter Line.holdsRule).map Line.parse =
      (texts.filterMap ruleOnLine?).map .ok := by
  induction texts generalizing number with
  | nil => rfl
  | cons cs texts inductionHypothesis =>
      obtain ⟨isLine, othersAreLines⟩ := List.forall_mem_cons.mp areLines
      have othersParsed := inductionHypothesis othersAreLines (number + 1)
      rw [Line.numberedFrom]
      rcases ruleOnLine?_of_isBuiltinLine isLine with
        ⟨saysNothing, noRule⟩ | ⟨rule, holdsRule, reads, isRule, _⟩
      · rw [List.filter_cons_of_neg (by simp [Line.holdsRule_ofList, saysNothing]),
          List.filterMap_cons_none noRule, othersParsed]
      · have headParsed : (⟨number + 1, String.ofList cs⟩ : Line).parse = .ok rule :=
          (Line.parse_eq_ok_iff _).mpr (parse_ofList_of_ruleOfChars? reads)
        rw [List.filter_cons_of_pos (by simp [Line.holdsRule_ofList, holdsRule]),
          List.filterMap_cons_some isRule, List.map_cons, List.map_cons, headParsed, othersParsed]

theorem isBuiltinLine_of_mem_map_toList :
    ∀ cs ∈ builtinLines.map String.toList, isBuiltinLine cs = true := by
  rw [List.forall_mem_map]
  exact isBuiltinLine_of_mem_builtinLines

/-- No built-in rule is for a toggle. -/
theorem isToggle_of_mem_builtinRules :
    ∀ rule ∈ builtinRules, rule.selector.isToggle = false := by
  intro rule member
  obtain ⟨cs, isLine, isRule⟩ := List.mem_filterMap.mp member
  rcases ruleOnLine?_of_isBuiltinLine (isBuiltinLine_of_mem_map_toList cs isLine) with
    ⟨_, noRule⟩ | ⟨_, _, _, same, noToggle⟩
  · cases noRule.symm.trans isRule
  · cases same.symm.trans isRule
    exact noToggle

theorem toList_builtinText :
    builtinText.toList = (builtinLines.map String.toList).flatMap (· ++ ['\n']) := by
  simp [builtinText, String.toList_join, List.flatMap_map]

/-- The lines of the built-in text that hold rules are the built-in rules. -/
theorem map_parse_ruleLines_builtinText :
    (ruleLines builtinText).map Line.parse = builtinRules.map .ok := by
  have parts : ∀ cs ∈ builtinLines.map String.toList,
      '\n' ∉ cs ∧ cs.getLast? ≠ some '\r' := by
    intro cs member
    have isLine := isBuiltinLine_of_mem_map_toList cs member
    simp only [isBuiltinLine, Bool.and_eq_true] at isLine
    simpa using isLine.1
  rw [ruleLines, Line.ofSource_eq, toList_builtinText,
    Text.lines_flatMap (fun cs member => (parts cs member).1) fun cs member =>
      (parts cs member).2]
  exact map_parse_numberedFrom isBuiltinLine_of_mem_map_toList 0

/-- The built-in rules are registered behind any others, without a fault. -/
theorem Builder.registerSource_builtinText
    (builder : Builder)
    (strictness : Strictness) :
    builder.registerSource strictness builtinText =
      .ok (.ofValue (builtinRules.foldl register builder)) :=
  registerLines_of_parse builder map_parse_ruleLines_builtinText

theorem builtin_eq :
    builtin = (builtinRules.foldl Builder.register Builder.empty).build := by
  rw [builtin, parseLeniently, Builder.registerSource_builtinText]
  rfl

/-- The first of the built-in rules is for a heading. -/
theorem exists_builtinRules_eq_cons :
    ∃ others, builtinRules =
      ⟨.paragraph ⟨some "Heading1", none, none⟩, .fresh "h1"⟩ :: others := by
  have comment : ruleOnLine? "# Headings, by style id and by style name".toList = none := by
    decide +kernel
  have heading : ruleOnLine? "p.Heading1 -> h1:fresh".toList =
      some ⟨.paragraph ⟨some "Heading1", none, none⟩, .fresh "h1"⟩ := by
    decide +kernel
  rw [builtinRules, builtinLines, List.map_cons, List.filterMap_cons_none comment, List.map_cons,
    List.filterMap_cons_some heading]
  exact ⟨_, rfl⟩

end StyleMap
end StyleRules
