import DirectionCentral.Proofs.Text.Cut
import DirectionCentral.Text.Digits
import DirectionCentral.Text.UpperCase

/-!
# Letter case

A text is folded by writing its ASCII letters in lower case. What does not look at the case of a
letter comes to the same on the folded text (`toLower_invariant`, which leaves the ASCII characters
to be checked): its capitals, its numbers, its blanks, and where it is cut.
-/

namespace DirectionCentral.Text

/-- A text with its ASCII letters in lower case. -/
def fold (text : List Char) : List Char := text.map Char.toLower

variable {stop : Char → Bool} {text : List Char}

/-! ## Characters -/

/-- What takes both cases of every ASCII character alike takes both cases of any character alike. -/
theorem toLower_invariant {β : Type} (f : Char → β)
    (ascii : ∀ n < 128, f (Char.ofNat n).toLower = f (Char.ofNat n)) (c : Char) :
    f c.toLower = f c := by
  by_cases small : c.toNat < 128
  · have same := ascii c.toNat small
    rwa [Char.ofNat_toNat] at same
  · have other : c.toLower = c := by
      refine dif_neg fun letter => small ?_
      have bound : c.toNat ≤ 90 := UInt32.le_iff_toNat_le.1 letter.2
      omega
    rw [other]

/-- A predicate of characters does not look at the case of letters. -/
def Caseless (stop : Char → Bool) : Prop := ∀ c : Char, stop c.toLower = stop c

/-- Whether a character is a blank does not depend on its case. -/
theorem caseless_isBlank : Caseless isBlank := toLower_invariant isBlank (by decide +kernel)

/-- Whether a character is a decimal digit does not depend on its case. -/
theorem caseless_isDigit : Caseless Char.isDigit := toLower_invariant _ (by decide +kernel)

/-- The capital of a character does not depend on its case. -/
theorem capital_toLower (c : Char) : capital c.toLower = capital c :=
  toLower_invariant capital (by decide +kernel) c

/-- The value of a hexadecimal digit does not depend on its case. -/
theorem hexDigit?_toLower (c : Char) : hexDigit? c.toLower = hexDigit? c :=
  toLower_invariant hexDigit? (by decide +kernel) c

/-- A letter in lower case is in lower case. -/
theorem toLower_toLower (c : Char) : c.toLower.toLower = c.toLower :=
  toLower_invariant Char.toLower (by decide +kernel) c

/-- A character that is no letter is the lower case of itself alone. -/
theorem toLower_eq_iff {c d : Char} (other : d.isAlpha = false) : c.toLower = d ↔ c = d := by
  have kept (c : Char) (other : c.isAlpha = false) : c.toLower = c := by
    refine dif_neg fun letter => ?_
    have upper : c.isUpper = true := decide_eq_true letter
    change (c.isUpper || c.isLower) = false at other
    rw [upper] at other
    contradiction
  refine ⟨fun same => ?_, fun same => by rw [same, kept d other]⟩
  have alpha : c.toLower.isAlpha = c.isAlpha := toLower_invariant _ (by decide +kernel) c
  rw [same, other] at alpha
  exact (kept c alpha.symm).symm.trans same

/-- Whether a character is a given one that is no letter does not depend on its case. -/
theorem caseless_beq {d : Char} (other : d.isAlpha = false) : Caseless (· == d) := fun c => by
  rw [Bool.eq_iff_iff, beq_iff_eq, beq_iff_eq, toLower_eq_iff other]

/-! ## Texts -/

/-- A folded text is folded. -/
theorem fold_fold (text : List Char) : fold (fold text) = fold text := by
  rw [fold, fold, List.map_map]
  exact List.map_congr_left fun c _ => toLower_toLower c

/-- A folded text has the same capitals. -/
theorem upper_fold (text : List Char) : upper (fold text) = upper text := by
  rw [upper, fold, List.flatMap_map, upper]
  exact List.flatMap_congr fun c _ => capital_toLower c

/-- A folded text has the same letters as any text that the text does. -/
theorem sameLetters_fold (text other : List Char) :
    sameLetters (fold text) other = sameLetters text other := by
  have same : (fold text).map Char.toLower = text.map Char.toLower := fold_fold text
  rw [sameLetters, sameLetters, same]

/-- Folding a text keeps whether there is a text. -/
theorem isEmpty_fold (text : List Char) : (fold text).isEmpty = text.isEmpty := List.isEmpty_map

/-- A folded text begins with a character that is no letter just if the text does. -/
theorem fold_eq_cons_iff {rest : List Char} {c : Char} (other : c.isAlpha = false) :
    fold text = c :: rest ↔ ∃ tail, text = c :: tail ∧ fold tail = rest := by
  rw [fold, List.map_eq_cons_iff]
  constructor
  · rintro ⟨d, tail, rfl, same, rfl⟩
    exact ⟨tail, by rw [(toLower_eq_iff other).1 same], rfl⟩
  · rintro ⟨tail, rfl, rfl⟩
    exact ⟨c, tail, rfl, (toLower_eq_iff other).2 rfl, rfl⟩

/-- What satisfies a caseless predicate at the front of a folded text is what does in the text. -/
theorem takeWhile_fold (caseless : Caseless stop) (text : List Char) :
    (fold text).takeWhile stop = fold (text.takeWhile stop) := by
  have same : stop ∘ Char.toLower = stop := funext caseless
  rw [fold, List.takeWhile_map, same, fold]

/-- What follows it in a folded text is what follows it in the text. -/
theorem dropWhile_fold (caseless : Caseless stop) (text : List Char) :
    (fold text).dropWhile stop = fold (text.dropWhile stop) := by
  have same : stop ∘ Char.toLower = stop := funext caseless
  rw [fold, List.dropWhile_map, same, fold]

/-- A folded text is turned around as the text is. -/
theorem reverse_fold (text : List Char) : (fold text).reverse = fold text.reverse :=
  List.map_reverse.symm

/-- A folded text is trimmed as the text is. -/
theorem trim_fold (text : List Char) : trim (fold text) = fold (trim text) := by
  rw [trim, dropWhile_fold caseless_isBlank, trimEnd, reverse_fold,
    dropWhile_fold caseless_isBlank, reverse_fold, trim, trimEnd]

/-- The opposite of a caseless predicate is one. -/
theorem Caseless.not (caseless : Caseless stop) : Caseless (!stop ·) := fun c =>
  congrArg Bool.not (caseless c)

/-- A folded text is split where the text is. -/
theorem splitAtFirst_fold (caseless : Caseless stop) (text : List Char) :
    splitAtFirst stop (fold text) =
      (fold (splitAtFirst stop text).1, (splitAtFirst stop text).2.map fold) := by
  rw [splitAtFirst, dropWhile_fold caseless.not, takeWhile_fold caseless.not, splitAtFirst]
  cases text.dropWhile (!stop ·) <;> rfl

/-- A folded text is split at its last stop where the text is. -/
theorem splitAtLast_fold (caseless : Caseless stop) (text : List Char) :
    splitAtLast stop (fold text) =
      (splitAtLast stop text).map fun parts => (fold parts.1, fold parts.2) := by
  rw [splitAtLast, reverse_fold, splitAtFirst_fold caseless, splitAtLast]
  cases splitAtFirst stop text.reverse with
  | mk before after =>
    cases after with
    | none => rfl
    | some rest =>
      rw [Option.map_some, Option.map_some]
      simp only [reverse_fold]

/-! ## Digits -/

/-- Hexadecimal digits of either case denote the same number. -/
theorem hexadecimal?_fold (text : List Char) : hexadecimal? (fold text) = hexadecimal? text := by
  cases text with
  | nil => rfl
  | cons c rest =>
    rw [hexadecimal?, fold, List.map_cons, hexadecimal?, ← List.map_cons, List.foldlM_map]
    simp only [hexDigit?_toLower]

/-- A decimal digit is no letter. -/
theorem toLower_of_isDigit {c : Char} (digit : c.isDigit = true) : c.toLower = c := by
  refine dif_neg fun letter => ?_
  have large : 65 ≤ c.toNat := UInt32.le_iff_toNat_le.1 letter.1
  have small : c.toNat ≤ 57 :=
    UInt32.le_iff_toNat_le.1 (of_decide_eq_true (Bool.and_eq_true_iff.1 digit).2)
  omega

/-- Decimal digits denote the same number in a folded text. -/
theorem decimal?_fold (text : List Char) : decimal? (fold text) = decimal? text := by
  have digits : (fold text).all Char.isDigit = text.all Char.isDigit := by
    rw [fold, List.all_map]
    exact congrArg _ (funext caseless_isDigit)
  rw [decimal?, decimal?, isEmpty_fold, digits]
  split
  · rfl
  · rename_i numeral
    simp only [Bool.or_eq_true, Bool.not_eq_true', not_or, Bool.not_eq_false,
      List.all_eq_true] at numeral
    have same : fold text = text :=
      (List.map_congr_left fun c member => toLower_of_isDigit (numeral.2 c member)).trans
        (List.map_id' text)
    rw [same]

end DirectionCentral.Text
