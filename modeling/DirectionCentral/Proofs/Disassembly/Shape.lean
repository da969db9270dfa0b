import DirectionCentral.Disassembly
import DirectionCentral.Proofs.Assembly.Digits
import DirectionCentral.Proofs.Assembly.Numeral

/-!
# The text of a word

The text of a word has one of four shapes (`Shape`): a bare mnemonic, a mnemonic with an address, a
mnemonic with two counts, or question marks. Each of them is one line that has neither a comment nor
a label and that trimming leaves as it is.
-/

namespace DirectionCentral.Disassembly

open Text Assembly

/-- The index suffix of a word. -/
def suffix (indexed : Bool) : List Char := if indexed then [',', 'X'] else []

/-- The shapes that the text of an instruction has. -/
inductive Shape (i : Instruction) : List Char → Prop
  /-- A bare `HLT` for the zero fields. -/
  | halt (performs : i.operation? = some .hlt) (zero : i.address = 0) (direct : i.indexed = false) :
      Shape i "HLT".toList
  /-- A mnemonic and an address. -/
  | operand {op : Operation} (performs : i.operation? = some op) (other : op ≠ .txi) :
      Shape i (op.mnemonic.toList ++ ' ' :: (decimal i.address.toNat ++ suffix i.indexed))
  /-- `TXI` and two counts. -/
  | counts (performs : i.operation? = some .txi) :
      Shape i (Operation.txi.mnemonic.toList ++ ' ' ::
        (decimal i.increment.toNat ++ ',' :: decimal i.limit.toNat ++ suffix i.indexed))
  /-- Question marks, the operation byte and an address. -/
  | unknown (performs : i.operation? = none) :
      Shape i ("???".toList ++ ' ' :: ("0x".toList ++ hexadecimal 2 i.code.toNat ++
        ' ' :: (decimal i.address.toNat ++ suffix i.indexed)))

/-- The text of a word has the shape of its fields. -/
theorem shape_wordChars (word : Word) : Shape (Instruction.decode word) (wordChars word) := by
  unfold wordChars
  dsimp only
  split
  · rename_i performs
    split
    · rename_i bare
      exact .halt performs bare.1 bare.2
    · simpa [suffix, Operation.mnemonic] using Shape.operand performs (by decide)
  · rename_i performs
    simpa [suffix, Operation.mnemonic] using Shape.counts performs
  · rename_i op _ other performs
    simpa [suffix] using Shape.operand performs other
  · rename_i performs
    simpa [suffix] using Shape.unknown performs

/-! ## Characters -/

/-- Whether a character neither ends a line, nor begins a comment, nor ends a label. -/
def isPlain (c : Char) : Bool := c != '\n' && c != ';' && c != ':'

/-- Digits of a base are plain. -/
theorem isPlain_of_digitsForm {base n : Nat} {text : List Char} (form : DigitsForm base text n)
    (bound : base ≤ 16) : ∀ c ∈ text, isPlain c = true := by
  intro c member
  have alphanumeric : c.isAlphanum = true := (form.isAlphanum bound).2 c member
  simp only [isPlain, Bool.and_eq_true, bne_iff_ne]
  refine ⟨⟨?_, ?_⟩, ?_⟩ <;> rintro rfl <;> contradiction

/-- Decimal digits are plain. -/
theorem isPlain_of_mem_decimal {n : Nat} {c : Char} (member : c ∈ decimal n) :
    isPlain c = true :=
  isPlain_of_digitsForm (digitsForm_toDigits (by decide) n) (by decide) c member

/-- The index suffix is plain. -/
theorem isPlain_of_mem_suffix {indexed : Bool} {c : Char} (member : c ∈ suffix indexed) :
    isPlain c = true := by
  cases indexed with
  | false => contradiction
  | true =>
    obtain rfl | rfl : c = ',' ∨ c = 'X' := by simpa [suffix] using member
    · rfl
    · rfl

/-- A mnemonic consists of plain characters that are not blank and stay as they are in capitals. -/
theorem mnemonic_plain (op : Operation) :
    (∀ c ∈ op.mnemonic.toList, isPlain c = true) ∧
      (∀ c ∈ op.mnemonic.toList, isBlank c = false) ∧
      upper op.mnemonic.toList = op.mnemonic.toList := by
  have plain : op.mnemonic.toList.all isPlain = true := by cases op <;> decide
  have nonblank : op.mnemonic.toList.all (!isBlank ·) = true := by cases op <;> decide
  have capitals : upper op.mnemonic.toList = op.mnemonic.toList := by cases op <;> decide
  exact ⟨List.all_eq_true.1 plain, by simpa using nonblank, capitals⟩

/-- Hexadecimal digits are plain. -/
theorem isPlain_of_mem_hexadecimal {width n : Nat} {c : Char} (member : c ∈ hexadecimal width n) :
    isPlain c = true :=
  isPlain_of_digitsForm (digitsForm_hexadecimal width n) (Nat.le_refl _) c member

/-- The text of an instruction is one line without a comment or a label. -/
theorem Shape.plain {i : Instruction} {text : List Char} (shape : Shape i text) :
    ∀ c ∈ text, isPlain c = true := by
  have blank : isPlain ' ' = true := rfl
  have comma : isPlain ',' = true := rfl
  have address : ∀ c ∈ decimal i.address.toNat ++ suffix i.indexed, isPlain c = true := by
    intro c member
    obtain member | member := List.mem_append.1 member
    · exact isPlain_of_mem_decimal member
    · exact isPlain_of_mem_suffix member
  cases shape with
  | halt => exact List.all_eq_true.1 rfl
  | @operand op =>
    rw [List.forall_mem_append, List.forall_mem_cons]
    exact ⟨(mnemonic_plain op).1, blank, address⟩
  | counts =>
    rw [List.forall_mem_append, List.forall_mem_cons, List.forall_mem_append,
      List.forall_mem_append, List.forall_mem_cons]
    exact ⟨(mnemonic_plain .txi).1, blank, ⟨fun _ => isPlain_of_mem_decimal, comma,
      fun _ => isPlain_of_mem_decimal⟩, fun _ => isPlain_of_mem_suffix⟩
  | unknown =>
    rw [List.forall_mem_append, List.forall_mem_cons, List.forall_mem_append,
      List.forall_mem_append, List.forall_mem_cons]
    exact ⟨List.all_eq_true.1 rfl, blank, ⟨List.all_eq_true.1 rfl,
      fun _ => isPlain_of_mem_hexadecimal⟩, blank, address⟩

/-- The text of an instruction is not empty. -/
theorem Shape.ne_nil {i : Instruction} {text : List Char} (shape : Shape i text) : text ≠ [] := by
  cases shape with
  | halt => decide
  | operand => simp
  | counts => simp
  | unknown => simp

/-- A text that ends with an address does not end with a blank. -/
theorem getLast?_address (front : List Char) (n : Nat) (indexed : Bool) :
    ∀ c ∈ (front ++ (decimal n ++ suffix indexed)).getLast?, isBlank c = false := by
  intro c last
  cases indexed with
  | true =>
    obtain rfl : 'X' = c := by simpa [suffix] using last
    rfl
  | false =>
    rw [suffix, if_neg (by decide), List.append_nil,
      List.getLast?_append_of_ne_nil _ (decimal_ne_nil n)] at last
    exact isBlank_of_isDigit (isDigit_of_mem_decimal (List.mem_of_getLast? last))

/-- The text of an instruction neither begins nor ends with a blank. -/
theorem Shape.trim {i : Instruction} {text : List Char} (shape : Shape i text) :
    Text.trim text = text := by
  have first : ∀ op : Operation, ∀ rest, ∀ c ∈ (op.mnemonic.toList ++ rest).head?,
      isBlank c = false := by
    intro op rest c head
    cases op <;> · obtain rfl := Option.some.inj head; rfl
  cases shape with
  | halt => decide
  | @operand op =>
    refine trim_eq_self (first op _) ?_
    have last := getLast?_address (op.mnemonic.toList ++ [' ']) i.address.toNat i.indexed
    rwa [List.append_assoc] at last
  | counts =>
    refine trim_eq_self (first .txi _) ?_
    have last := getLast?_address (Operation.txi.mnemonic.toList ++ ' ' ::
      (decimal i.increment.toNat ++ [','])) i.limit.toNat i.indexed
    simpa using last
  | unknown =>
    refine trim_eq_self (fun c head => ?_) ?_
    · obtain rfl := Option.some.inj head
      rfl
    · have last := getLast?_address ("???".toList ++ ' ' :: ("0x".toList ++
        hexadecimal 2 i.code.toNat ++ [' '])) i.address.toNat i.indexed
      simpa using last

end DirectionCentral.Disassembly
