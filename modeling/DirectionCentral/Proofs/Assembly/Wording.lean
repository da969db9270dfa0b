import DirectionCentral.Proofs.Assembly.Token

/-!
# From the grammar to the notation

A text that the grammar makes says, in the notation, what it stands for (`LineForm.lineText`): cut
at its first semicolon, first colon, first blank, last comma and first sign, it falls into the parts
of which it was made. Each form is put down with the characters that it may contain, so that no cut
comes too early, and with what it begins and ends with, so that trimming takes no more than spacing.
-/

namespace DirectionCentral.Assembly

open Text

variable {before after text suffix name : List Char} {value : Int}

/-! ## Trimming -/

/-- A text that neither begins nor ends with a blank, and is not empty. -/
structure Tight (text : List Char) : Prop where
  /-- There is a character. -/
  nonempty : text ≠ []
  /-- The first one is not blank. -/
  first : ∀ c ∈ text.head?, isBlank c = false
  /-- The last one is not blank. -/
  last : ∀ c ∈ text.getLast?, isBlank c = false

/-- Spacing on either side is trimmed. -/
theorem trim_spacing (left : Spacing before) (right : Spacing after) (text : List Char) :
    trim (before ++ text ++ after) = trim text := by
  have front : ∀ c ∈ before, isBlank c = true := fun c member => (left c member).1
  have back : ∀ c ∈ after, isBlank c = true := fun c member => (right c member).1
  have ended (text : List Char) : trimEnd (text ++ after) = trimEnd text := by
    rw [trimEnd, List.reverse_append,
      List.dropWhile_append_of_pos fun c member => back c (List.mem_reverse.1 member), trimEnd]
  rw [trim, List.append_assoc, List.dropWhile_append_of_pos front, List.dropWhile_append, trim]
  split
  · rename_i blank
    have none : after.dropWhile isBlank = [] := List.dropWhile_eq_nil_iff.2 back
    rw [none, List.isEmpty_iff.1 blank]
  · exact ended _

/-- A text between spacing is what trimming leaves. -/
theorem Tight.trim (tight : Tight text) (left : Spacing before) (right : Spacing after) :
    Text.trim (before ++ text ++ after) = text := by
  rw [trim_spacing left right, trim_eq_self tight.first tight.last]

/-- Nothing is spacing. -/
theorem spacing_nil : Spacing [] := fun _ member => by contradiction

/-- A text all of whose characters are blanks within a line is spacing. -/
theorem spacing_of_all {text : List Char}
    (all : text.all (fun c => isBlank c && c != '\n') = true) : Spacing text := by
  intro c member
  simpa using List.all_eq_true.1 all c member

/-- A text in front of spacing is what trimming leaves. -/
theorem Tight.trim_right (tight : Tight text) (right : Spacing after) :
    Text.trim (text ++ after) = text :=
  tight.trim spacing_nil right

/-- A text after spacing is what trimming leaves. -/
theorem Tight.trim_left (tight : Tight text) (left : Spacing before) :
    Text.trim (before ++ text) = text := by
  have trimmed := tight.trim left spacing_nil
  rwa [List.append_nil] at trimmed

/-- A text that begins and ends with tight texts is tight. -/
theorem Tight.join {last : List Char} (front : Tight text) (back : Tight last)
    (middle : List Char) : Tight (text ++ middle ++ last) where
  nonempty := by simp [front.nonempty]
  first c head := front.first c (by
    rwa [List.append_assoc, List.head?_append_of_ne_nil _ front.nonempty] at head)
  last c end' := back.last c (by rwa [List.getLast?_append_of_ne_nil _ back.nonempty] at end')

/-! ## Characters -/

/-- Whether a character can stand in an operand. -/
def isOperandChar (c : Char) : Bool := isTokenChar c || (isBlank c && c != '\n')

/-- Whether a character can stand in a statement. -/
def isStatementChar (c : Char) : Bool := isOperandChar c || c == ','

/-- Characters of names and numerals can stand in operands. -/
theorem isOperandChar_of_isTokenChar {c : Char} (token : isTokenChar c = true) :
    isOperandChar c = true := by
  rw [isOperandChar, token, Bool.true_or]

/-- What can stand in an operand can stand in a statement. -/
theorem isStatementChar_of_isOperandChar {c : Char} (member : isOperandChar c = true) :
    isStatementChar c = true := by
  rw [isStatementChar, member, Bool.true_or]

/-- Spacing can stand in operands. -/
theorem Spacing.isOperandChar (spacing : Spacing text) :
    ∀ c ∈ text, Assembly.isOperandChar c = true := by
  intro c member
  obtain ⟨blank, newline⟩ := spacing c member
  simp [Assembly.isOperandChar, blank, newline]

/-- A blank within a line is no sign, and separates nothing else. -/
theorem Spacing.plain (spacing : Spacing text) :
    ∀ c ∈ text, isSign c = false ∧ c ≠ ',' ∧ c ≠ ';' ∧ c ≠ ':' := by
  intro c member
  have blank := (spacing c member).1
  simp only [isSign, Bool.or_eq_false_iff, beq_eq_false_iff_ne]
  refine ⟨⟨?_, ?_⟩, ?_, ?_, ?_⟩ <;> · rintro rfl; contradiction

/-- An operand has no comma. -/
theorem ne_comma_of_isOperandChar {c : Char} (member : isOperandChar c = true) : c ≠ ',' := by
  rintro rfl
  contradiction

/-- A statement ends no line and no label, and begins no comment. -/
theorem isStatementChar_plain {c : Char} (member : isStatementChar c = true) :
    c ≠ '\n' ∧ c ≠ ';' ∧ c ≠ ':' := by
  refine ⟨?_, ?_, ?_⟩ <;> · rintro rfl; contradiction

/-- A text of characters of names and numerals is tight. -/
theorem tight_of_tokens (nonempty : text ≠ []) (tokens : ∀ c ∈ text, isTokenChar c = true) :
    Tight text where
  nonempty := nonempty
  first c head := (isTokenChar_separates_nothing (tokens c (List.mem_of_mem_head? head))).1
  last c end' := (isTokenChar_separates_nothing (tokens c (List.mem_of_getLast? end'))).1

/-- A name is tight. -/
theorem IsName.tight (isName : IsName name) : Tight name := by
  refine tight_of_tokens ?_ fun c member => ?_
  · cases isName
    exact List.cons_ne_nil _ _
  · rw [isTokenChar, isName.isNameChar_of_mem c member, Bool.true_or]

/-- A numeral is tight. -/
theorem NumeralForm.tight (form : NumeralForm text value) : Tight text :=
  tight_of_tokens form.isTokenChar_of_mem.1 form.isTokenChar_of_mem.2

/-- A name can stand in an operand. -/
theorem IsName.isOperandChar (isName : IsName name) :
    ∀ c ∈ name, Assembly.isOperandChar c = true := by
  intro c member
  apply isOperandChar_of_isTokenChar
  rw [isTokenChar, isName.isNameChar_of_mem c member, Bool.true_or]

/-- A numeral can stand in an operand. -/
theorem NumeralForm.isOperandChar (form : NumeralForm text value) :
    ∀ c ∈ text, Assembly.isOperandChar c = true :=
  fun c member => isOperandChar_of_isTokenChar (form.isTokenChar_of_mem.2 c member)

/-! ## Operands -/

/-- The number that an operand gives: itself, or the offset of the reference. -/
def Operand.given : Operand → Int
  | .number value => value
  | .reference r => r.offset

/-- The numbers that an argument gives. -/
def Argument.numbers : Argument → List Int
  | .none => []
  | .operand o => [o.given]
  | .counts increment limit => [increment, limit]

/-- The numbers that a directive gives. -/
def Directive.numbers : Directive → List Int
  | .origin address => [address]
  | .data o => [o.given]
  | .instruction _ a _ => a.numbers

/-- A sign between a name and a numeral, with spacing around it. -/
theorem tight_signed {digits : List Char} {sign : Char} (isSign : isSign sign = true)
    (isName : IsName name) (left : Spacing before) (right : Spacing after)
    (numeral : NumeralForm digits value) :
    Tight (name ++ before ++ sign :: (after ++ digits)) ∧
      ∀ c ∈ name ++ before ++ sign :: (after ++ digits), isOperandChar c = true := by
  have signChar : isOperandChar sign = true :=
    isOperandChar_of_isTokenChar (by rw [isTokenChar, isSign, Bool.or_true])
  constructor
  · have joined := isName.tight.join numeral.tight (before ++ sign :: after)
    simpa using joined
  · simp only [List.forall_mem_append, List.forall_mem_cons]
    exact ⟨⟨isName.isOperandChar, left.isOperandChar⟩, signChar, right.isOperandChar,
      numeral.isOperandChar⟩

/-- An operand is tight and has no comma. -/
theorem OperandForm.tight {o : Operand} (form : OperandForm text o) :
    Tight text ∧ ∀ c ∈ text, isOperandChar c = true := by
  cases form with
  | number numeral => exact ⟨numeral.tight, numeral.isOperandChar⟩
  | name isName => exact ⟨isName.tight, isName.isOperandChar⟩
  | plus isName left right numeral => exact tight_signed rfl isName left right numeral
  | minus isName left right numeral => exact tight_signed rfl isName left right numeral

/-- A name without a sign after it, or up to the sign after it. -/
theorem IsName.operandText {rest : List Char} {offset : Int} (isName : IsName name)
    (left : Spacing before) (stopped : ∀ c ∈ rest.head?, isSign c = true)
    (tail : OffsetText rest offset) :
    OperandText (name ++ before ++ rest) (.reference ⟨labelOf name, offset⟩) := by
  have free : ∀ c ∈ name ++ before, isSign c = false := by
    rw [List.forall_mem_append]
    exact ⟨fun c member => (isNameChar_toUpper (isName.isNameChar_of_mem c member)).1,
      fun c member => (left.plain c member).1⟩
  have cut : CutAt isSign (name ++ before ++ rest) (name ++ before) rest := ⟨rfl, free, stopped⟩
  have other : ∀ value, ¬ NumberText (name ++ before ++ rest) value := by
    cases isName with
    | cons letter others => exact number?_eq_none_iff.1 (number?_eq_none letter _)
  have same : trim (name ++ before) = name := isName.tight.trim_right left
  have said := OperandText.reference other cut (by rw [same]; exact isName.isIdentifier_upper) tail
  rwa [same, isName.upper_eq] at said

/-- What the grammar makes for an operand says the operand. -/
theorem OperandForm.operandText {o : Operand} (form : OperandForm text o)
    (fits : o.given.natAbs < 2 ^ 63) : OperandText text o := by
  have sign (c : Char) (isSign : Assembly.isSign c = true) (rest : List Char) :
      ∀ d ∈ (c :: rest).head?, Assembly.isSign d = true := by
    intro d head
    obtain rfl := Option.some.inj head
    exact isSign
  cases form with
  | number numeral => exact .number (numeral.numberText fits)
  | name isName =>
    have said : OperandText (text ++ [] ++ []) (.reference ⟨labelOf text, 0⟩) :=
      isName.operandText spacing_nil (fun c head => by contradiction) .none
    simpa using said
  | plus isName left right numeral =>
    refine isName.operandText left (sign _ rfl _) (.plus ?_)
    rw [numeral.tight.trim_left right]
    exact numeral.numberText fits
  | @minus _ _ after digits n isName left right numeral =>
    have small : n.natAbs < 2 ^ 63 := by rwa [Operand.given, Int.natAbs_neg] at fits
    have offset : OffsetText ('-' :: (after ++ digits)) (-n) := by
      have kept : wrap64 (-n) = -n := wrap64_eq_self (by omega)
      rw [← kept]
      refine .minus ?_
      rw [numeral.tight.trim_left right]
      exact numeral.numberText small
    exact isName.operandText left (sign _ rfl _) offset

/-! ## Arguments -/

/-- The index suffix can stand in a statement, and ends with no blank. -/
theorem SuffixForm.tight {indexed : Bool} (form : SuffixForm suffix indexed) (tight : Tight text) :
    Tight (text ++ suffix) ∧ ∀ c ∈ suffix, isStatementChar c = true := by
  cases form with
  | none => exact ⟨by rwa [List.append_nil], fun c member => by contradiction⟩
  | @index before after x left right letter =>
    have token : isTokenChar x = true := by obtain rfl | rfl := letter <;> rfl
    have last : Tight [x] := tight_of_tokens (by simp) (by simpa using token)
    constructor
    · have joined := tight.join last (before ++ ',' :: after)
      simpa using joined
    · simp only [List.forall_mem_append, List.forall_mem_cons]
      exact ⟨fun c member => isStatementChar_of_isOperandChar (left.isOperandChar c member), rfl,
        fun c member => isStatementChar_of_isOperandChar (right.isOperandChar c member),
        isStatementChar_of_isOperandChar (isOperandChar_of_isTokenChar token),
        fun c member => by contradiction⟩

/-- The index suffix is told from the text before it, if that has none of its own. -/
theorem SuffixForm.indexText {indexed : Bool} (form : SuffixForm suffix indexed)
    (tight : Tight text) (direct : IndexText text text false) :
    IndexText (text ++ suffix) text indexed := by
  cases form with
  | none => rwa [List.append_nil]
  | @index before after x left right letter =>
    have last : ∀ c ∈ after ++ [x], (c == ',') = false := by
      rw [List.forall_mem_append, List.forall_mem_singleton]
      refine ⟨fun c member => beq_eq_false_iff_ne.2 (right.plain c member).2.1, ?_⟩
      obtain rfl | rfl := letter <;> rfl
    have trimmed : trim (after ++ [x]) = [x] := by
      have token : isTokenChar x = true := by obtain rfl | rfl := letter <;> rfl
      have single : Tight [x] := tight_of_tokens (by simp) (by simpa using token)
      exact single.trim_left right
    have isX : sameLetters (trim (after ++ [x])) ['X'] = true := by
      rw [trimmed]
      obtain rfl | rfl := letter <;> decide
    have whole : text ++ (before ++ ',' :: (after ++ [x])) =
        (text ++ before) ++ ',' :: (after ++ [x]) := by simp
    have said := IndexText.indexed whole last isX
    rwa [tight.trim_right left] at said

/-- A text without a comma has no index suffix. -/
theorem indexText_of_free (free : ∀ c ∈ text, c ≠ ',') : IndexText text text false := by
  refine .direct fun front suffix whole _ => ?_
  have member : ',' ∈ text := by simp [whole]
  exact absurd rfl (free ',' member)

/-- A numeral is no index suffix. -/
theorem NumeralForm.sameLetters (form : NumeralForm text value) (fits : value.natAbs < 2 ^ 63) :
    Text.sameLetters text ['X'] = false := by
  have read := form.number? fits
  rw [Text.sameLetters, beq_eq_false_iff_ne]
  intro same
  obtain ⟨c, rfl, lower⟩ : ∃ c, text = [c] ∧ c.toLower = 'x' := by
    cases text with
    | nil => contradiction
    | cons c rest =>
      obtain ⟨lower, ended⟩ := List.cons.inj same
      exact ⟨c, by rw [List.map_eq_nil_iff.1 ended], lower⟩
  have ascii := ascii_of_isTokenChar (form.isTokenChar_of_mem.2 c (List.mem_singleton_self c))
  have none : Assembly.number? [c] = none :=
    forall_ascii (P := fun c => c.toLower = 'x' → Assembly.number? [c] = none) (by decide +kernel)
      ascii lower
  rw [none] at read
  contradiction

/-- A text that begins and ends with a numeral is tight. -/
theorem tight_counts {first second : List Char} {increment limit : Int}
    (high : NumeralForm first increment) (low : NumeralForm second limit)
    (before after : List Char) : Tight (first ++ before ++ ',' :: (after ++ second)) := by
  have joined := high.tight.join low.tight (before ++ ',' :: after)
  simpa using joined

/-- An argument is tight. -/
theorem ArgumentForm.tight {op : Operation} {a : Argument} (form : ArgumentForm op text a) :
    Tight text ∧ ∀ c ∈ text, isStatementChar c = true := by
  have statement {text : List Char} (members : ∀ c ∈ text, isOperandChar c = true) :
      ∀ c ∈ text, isStatementChar c = true :=
    fun c member => isStatementChar_of_isOperandChar (members c member)
  cases form with
  | operand other operand => exact ⟨operand.tight.1, statement operand.tight.2⟩
  | counts counts high left right low =>
    refine ⟨tight_counts high low _ _, ?_⟩
    simp only [List.forall_mem_append, List.forall_mem_cons]
    exact ⟨⟨statement high.isOperandChar, statement left.isOperandChar⟩, rfl,
      statement right.isOperandChar, statement low.isOperandChar⟩

/-- What the grammar makes for an argument says the argument, with an index suffix or without. -/
theorem ArgumentForm.argumentText {op : Operation} {a : Argument} {indexed : Bool}
    (form : ArgumentForm op text a) (index : SuffixForm suffix indexed)
    (fits : ∀ n ∈ a.numbers, n.natAbs < 2 ^ 63) : ArgumentText op (text ++ suffix) a indexed := by
  have tight := form.tight.1
  have present : text ++ suffix ≠ [] := by simp [tight.nonempty]
  have trimmed : trim text = text := trim_eq_self tight.first tight.last
  cases form with
  | operand other operand =>
    have direct := indexText_of_free fun c member =>
      ne_comma_of_isOperandChar (operand.tight.2 c member)
    refine .operand other present (index.indexText tight direct) ?_
    rw [trimmed]
    exact operand.operandText (fits _ List.mem_cons_self)
  | @counts first before after second increment limit counts high left right low =>
    have highFits := fits increment List.mem_cons_self
    have lowFits := fits limit (List.mem_cons_of_mem _ List.mem_cons_self)
    have noComma : ∀ c ∈ after ++ second, (c == ',') = false := by
      rw [List.forall_mem_append]
      exact ⟨fun c member => beq_eq_false_iff_ne.2 (right.plain c member).2.1, fun c member =>
        beq_eq_false_iff_ne.2 (ne_comma_of_isOperandChar (low.isOperandChar c member))⟩
    have free : ∀ c ∈ first ++ before, (c == ',') = false := by
      rw [List.forall_mem_append]
      exact ⟨fun c member => beq_eq_false_iff_ne.2
        (ne_comma_of_isOperandChar (high.isOperandChar c member)),
        fun c member => beq_eq_false_iff_ne.2 (left.plain c member).2.1⟩
    -- The last comma of the two counts stands before a numeral, which is no `X`.
    have direct : IndexText (first ++ before ++ ',' :: (after ++ second))
        (first ++ before ++ ',' :: (after ++ second)) false := by
      refine .direct fun front suffix whole last => ?_
      have one : splitAtLast (· == ',') (first ++ before ++ ',' :: (after ++ second)) =
          some (first ++ before, after ++ second) :=
        splitAtLast_eq_some_iff.2 ⟨',', rfl, rfl, noComma⟩
      have other := splitAtLast_eq_some_iff.2 ⟨',', by decide, whole, last⟩
      obtain ⟨-, rfl⟩ := Prod.mk.inj (Option.some.inj (one.symm.trans other))
      rw [low.tight.trim_left right]
      exact low.sameLetters lowFits
    refine .counts counts present (index.indexText tight direct)
      ⟨rfl, free, fun c head => by obtain rfl := Option.some.inj head; rfl⟩ ?_ ?_
    · rw [high.tight.trim_right left]
      exact .number (high.numberText highFits)
    · rw [low.tight.trim_left right]
      exact .number (low.numberText lowFits)

/-! ## Statements -/

/-- What begins with a gap begins with a blank. -/
theorem Gap.stopped {gap : List Char} (blank : Gap gap) (rest : List Char) :
    ∀ c ∈ (gap ++ rest).head?, isBlank c = true := by
  intro c head
  rw [List.head?_append_of_ne_nil _ blank.nonempty] at head
  exact (blank.spacing c (List.mem_of_mem_head? head)).1

/-- A text that spells a word of letters is cut from a blank after it. -/
theorem Spells.cutAt {rest : List Char} {word : String} (spells : Spells name word)
    (letters : word.toList.all Char.isAlpha = true)
    (stopped : ∀ c ∈ rest.head?, isBlank c = true) : CutAt isBlank (name ++ rest) name rest := by
  refine ⟨rfl, fun c member => ?_, stopped⟩
  have token : isTokenChar c = true := by
    rw [isTokenChar, (spells.upper_eq letters).1 c member, Bool.true_or]
  exact (isTokenChar_separates_nothing token).1

/-- A text that spells a word of letters is tight. -/
theorem Spells.tight {word : String} (spells : Spells name word)
    (letters : word.toList.all Char.isAlpha = true) (nonempty : word.toList ≠ []) :
    Tight name ∧ ∀ c ∈ name, isStatementChar c = true := by
  have token : ∀ c ∈ name, isTokenChar c = true := by
    intro c member
    rw [isTokenChar, (spells.upper_eq letters).1 c member, Bool.true_or]
  refine ⟨tight_of_tokens ?_ token, fun c member => ?_⟩
  · rintro rfl
    exact nonempty spells.symm
  · rw [isStatementChar, isOperandChar_of_isTokenChar (token c member), Bool.true_or]

/-- A mnemonic is a word of letters. -/
theorem letters_mnemonic (op : Operation) :
    op.mnemonic.toList.all Char.isAlpha = true ∧ op.mnemonic.toList ≠ [] := by
  cases op <;> decide

/-- A statement is tight. -/
theorem StatementForm.tight {d : Directive} (form : StatementForm text d) :
    Tight text ∧ ∀ c ∈ text, isStatementChar c = true := by
  have statement {text : List Char} (members : ∀ c ∈ text, isOperandChar c = true) :
      ∀ c ∈ text, isStatementChar c = true :=
    fun c member => isStatementChar_of_isOperandChar (members c member)
  -- A word, a gap and a tight text.
  have joined {name gap text : List Char} {word : String} (spells : Spells name word)
      (letters : word.toList.all Char.isAlpha = true) (nonempty : word.toList ≠ [])
      (blank : Gap gap) (tight : Tight text) (members : ∀ c ∈ text, isStatementChar c = true) :
      Tight (name ++ (gap ++ text)) ∧ ∀ c ∈ name ++ (gap ++ text), isStatementChar c = true := by
    obtain ⟨front, letters⟩ := spells.tight letters nonempty
    constructor
    · have whole := front.join tight gap
      rwa [List.append_assoc] at whole
    · simp only [List.forall_mem_append]
      exact ⟨letters, statement blank.spacing.isOperandChar, members⟩
  cases form with
  | origin spells blank numeral =>
    exact joined spells (by decide) (by decide) blank numeral.tight
      (statement numeral.isOperandChar)
  | data spells blank operand =>
    obtain spells | spells := spells
    · exact joined spells (by decide) (by decide) blank operand.tight.1 (statement operand.tight.2)
    · exact joined spells (by decide) (by decide) blank operand.tight.1 (statement operand.tight.2)
  | halt spells => exact spells.tight (by decide) (by decide)
  | @instruction op _ _ _ _ _ _ spells blank argument index =>
    obtain ⟨letters, nonempty⟩ := letters_mnemonic op
    obtain ⟨tight, members⟩ := argument.tight
    obtain ⟨tight, suffix⟩ := index.tight tight
    exact joined spells letters nonempty blank tight (List.forall_mem_append.2 ⟨members, suffix⟩)

/-- What the grammar makes for a directive says the directive. -/
theorem StatementForm.statementText {d : Directive} (form : StatementForm text d)
    (fits : ∀ n ∈ d.numbers, n.natAbs < 2 ^ 63) : StatementText text d := by
  cases form with
  | origin spells blank numeral =>
    refine .origin (spells.cutAt (by decide) (blank.stopped _)) (spells.upper_eq (by decide)).2 ?_
    rw [numeral.tight.trim_left blank.spacing]
    exact .number (numeral.numberText (fits _ List.mem_cons_self))
  | @data name gap text o spells blank operand =>
    have said : OperandText (trim (gap ++ text)) o := by
      rw [operand.tight.1.trim_left blank.spacing]
      exact operand.operandText (fits _ List.mem_cons_self)
    obtain spells | spells := spells
    · have word := (spells.upper_eq (by decide)).2
      exact .data (spells.cutAt (by decide) (blank.stopped _)) (.inl word) said
    · have word := (spells.upper_eq (by decide)).2
      exact .data (spells.cutAt (by decide) (blank.stopped _)) (.inr word) said
  | halt spells =>
    have cut : CutAt isBlank (text ++ []) text [] :=
      spells.cutAt (by decide) fun c head => by contradiction
    have name := (spells.upper_eq (by decide)).2
    rw [List.append_nil] at cut
    refine .instruction cut ?_ (.none rfl rfl)
    rw [name]
    exact Operation.ofMnemonic?_mnemonic .hlt
  | @instruction op _ _ _ _ a indexed spells blank argument index =>
    obtain ⟨letters, nonempty⟩ := letters_mnemonic op
    have name := (spells.upper_eq letters).2
    refine .instruction (spells.cutAt letters (blank.stopped _)) ?_ ?_
    · rw [name]
      exact Operation.ofMnemonic?_mnemonic op
    · rw [(index.tight argument.tight.1).1.trim_left blank.spacing]
      exact argument.argumentText index fits

/-! ## Lines -/

/-- The numbers that a line gives. -/
def Line.numbers (line : Line) : List Int := line.directive?.elim [] Directive.numbers

/-- What the grammar makes for a directive or for nothing says that. -/
theorem BodyForm.optionalText {d? : Option Directive} (form : BodyForm text d?)
    (fits : ∀ n ∈ d?.elim [] Directive.numbers, n.natAbs < 2 ^ 63) : OptionalText text d? := by
  cases form with
  | none => exact .none rfl
  | some statement => exact .some statement.tight.1.nonempty (statement.statementText fits)

/-- A statement or nothing, in a line between spacing, is what trimming leaves of it, and it neither
ends a label nor begins a comment. -/
theorem BodyForm.trim {d? : Option Directive} (form : BodyForm text d?) (left : Spacing before)
    (right : Spacing after) : Text.trim (before ++ text ++ after) = text ∧
      ∀ c ∈ text, c ≠ '\n' ∧ c ≠ ';' ∧ c ≠ ':' := by
  cases form with
  | none => exact ⟨trim_spacing left right [], fun c member => by contradiction⟩
  | some statement =>
    exact ⟨statement.tight.1.trim left right, fun c member =>
      isStatementChar_plain (statement.tight.2 c member)⟩

/-- What stands before a comment contains neither a newline nor a semicolon. -/
theorem CodeForm.plain_of_mem {line : Line} (form : CodeForm text line) :
    ∀ c ∈ text, c ≠ '\n' ∧ c ≠ ';' := by
  have members {text : List Char} {d? : Option Directive} (body : BodyForm text d?) :
      ∀ c ∈ text, c ≠ '\n' ∧ c ≠ ';' := fun c member =>
    have plain := (body.trim spacing_nil spacing_nil).2 c member
    ⟨plain.1, plain.2.1⟩
  have blanks {text : List Char} (spacing : Spacing text) : ∀ c ∈ text, c ≠ '\n' ∧ c ≠ ';' :=
    fun c member => ⟨(spacing c member).2, (spacing.plain c member).2.2.1⟩
  cases form with
  | plain body => exact members body
  | labelled isName left right body =>
    simp only [List.forall_mem_append, List.forall_mem_cons]
    refine ⟨⟨fun c member => ?_, blanks left⟩, by decide, blanks right, members body⟩
    have plain := isStatementChar_plain
      (isStatementChar_of_isOperandChar (isName.isOperandChar c member))
    exact ⟨plain.1, plain.2.1⟩

/-- The code of a line is what stands before its comment, trimmed. -/
theorem code_eq {remark : List Char} (left : Spacing before) (free : ∀ c ∈ text, c ≠ ';')
    (right : Spacing after) (comment : CommentForm remark) :
    code (before ++ text ++ after ++ remark) = trim text := by
  have blank {spaces : List Char} (spacing : Spacing spaces) : ∀ c ∈ spaces, (c == ';') = false :=
    fun c member => beq_eq_false_iff_ne.2 (spacing.plain c member).2.2.1
  have noComment : ∀ c ∈ before ++ text ++ after, (c == ';') = false := by
    simp only [List.forall_mem_append]
    exact ⟨⟨blank left, fun c member => beq_eq_false_iff_ne.2 (free c member)⟩, blank right⟩
  have stopped : ∀ c ∈ remark.head?, (c == ';') = true := by
    intro c head
    cases comment with
    | none => contradiction
    | some =>
      obtain rfl := Option.some.inj head
      rfl
  have cut : CutAt (· == ';') (before ++ text ++ after ++ remark) (before ++ text ++ after)
      remark := ⟨rfl, noComment, stopped⟩
  rw [code_of_cutAt cut, trim_spacing left right]

/-- A label with its colon in front of a statement or of nothing is cut there. -/
theorem IsName.cutAt_colon {d? : Option Directive} (isName : IsName name)
    (left : Spacing before) (right : Spacing after) (body : BodyForm text d?) :
    ∃ rest, CutAt (· == ':') (trim (name ++ before ++ ':' :: (after ++ text))) (name ++ before)
      (':' :: rest) ∧ trim rest = text := by
  have free : ∀ c ∈ name ++ before, (c == ':') = false := by
    rw [List.forall_mem_append]
    refine ⟨fun c member => beq_eq_false_iff_ne.2 ?_, fun c member =>
      beq_eq_false_iff_ne.2 (left.plain c member).2.2.2⟩
    exact (isStatementChar_plain
      (isStatementChar_of_isOperandChar (isName.isOperandChar c member))).2.2
  have colon : Tight [':'] := by
    refine ⟨List.cons_ne_nil _ _, fun c first => ?_, fun c last => ?_⟩
    · rw [← Option.some.inj first]
      rfl
    · rw [← Option.some.inj last]
      rfl
  cases body with
  | none =>
    have whole : trim (name ++ before ++ ':' :: (after ++ [])) = name ++ before ++ [':'] := by
      have trimmed := (isName.tight.join colon before).trim_right right
      simpa using trimmed
    refine ⟨[], ⟨whole, free, fun c head => ?_⟩, rfl⟩
    obtain rfl := Option.some.inj head
    rfl
  | some statement =>
    have tight := statement.tight.1
    have whole : trim (name ++ before ++ ':' :: (after ++ text)) =
        name ++ before ++ ':' :: (after ++ text) := by
      have joined := isName.tight.join tight (before ++ ':' :: after)
      have trimmed := joined.trim_left spacing_nil
      simpa using trimmed
    refine ⟨after ++ text, ⟨whole, free, fun c head => ?_⟩, tight.trim_left right⟩
    obtain rfl := Option.some.inj head
    rfl

/-- What the grammar makes for a line says the line. -/
theorem LineForm.lineText {line : Line} (form : LineForm text line)
    (fits : ∀ n ∈ line.numbers, n.natAbs < 2 ^ 63) : LineText text line := by
  obtain ⟨left, form, right, comment⟩ := form
  rename_i outer inner after remark
  have cut := code_eq left (fun c member => (form.plain_of_mem c member).2) right comment
  cases form with
  | plain body =>
    obtain ⟨trimmed, plain⟩ := body.trim spacing_nil spacing_nil
    rw [List.nil_append, List.append_nil] at trimmed
    rw [trimmed] at cut
    refine .plain ?_ ?_
    · rw [cut]
      refine ⟨(List.append_nil _).symm, fun c member => ?_, fun c head => by contradiction⟩
      exact beq_eq_false_iff_ne.2 (plain c member).2.2
    · rw [cut]
      exact body.optionalText fits
  | @labelled name gap _ _ _ isName gapped right' body =>
    obtain ⟨rest, colon, trimmed⟩ := isName.cutAt_colon gapped right' body
    have same : trim (name ++ gap) = name := isName.tight.trim_right gapped
    rw [← cut] at colon
    have said := LineText.labelled colon (by rw [same]; exact isName.isIdentifier_upper)
      (trimmed ▸ body.optionalText fits)
    rwa [same, isName.upper_eq] at said

end DirectionCentral.Assembly
