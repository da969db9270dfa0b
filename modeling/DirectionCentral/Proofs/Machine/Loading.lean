import Mathlib.Data.List.Induction
import DirectionCentral.Machine

/-!
# What loading stores

Loading goes forward through the segments of an image and drops what lies past the end of memory;
looking a word up in the image goes backward and stops at the first segment that has one. The two
agree on every image (`loadImage_agrees`): a cell holds the word that the image has there, or what
it held before, and the count of stored words is that of the image's places that are cells. The
inductions take the last segment off, which the one applies last and the other tries first.
-/

namespace DirectionCentral

namespace Memory

/-- Memories of the same size that hold the same words are the same. -/
theorem ext_read {m m' : Memory} (size : m.size = m'.size)
    (reads : ∀ a : UInt64, a.toNat < m.size → m.read a = m'.read a) : m = m' := by
  obtain ⟨cells, small⟩ := m
  obtain ⟨cells', small'⟩ := m'
  rw [mk.injEq]
  refine Array.ext size fun i inside inside' => ?_
  have address : (UInt64.ofNat i).toNat = i := UInt64.toNat_ofNat_of_lt' (Nat.lt_trans inside small)
  have same := reads (.ofNat i) (address.symm ▸ inside)
  simpa [read, address, inside, inside'] using same

/-- The cells after storing words: those from the position on, as far as there are words. -/
theorem getElem?_storeFrom (cells : Array Word) (position : Nat) (words : List Word) (i : Nat) :
    (storeFrom cells position words)[i]? =
      if position ≤ i ∧ i < position + words.length ∧ i < cells.size then words[i - position]?
      else cells[i]? := by
  induction words generalizing cells position with
  | nil =>
    rw [storeFrom, if_neg (by simp only [List.length_nil]; omega)]
  | cons word rest ih =>
    rw [storeFrom, ih, Array.size_setIfInBounds, Array.getElem?_setIfInBounds, List.length_cons]
    by_cases here : position = i
    · subst here
      rw [if_neg (by omega), if_pos rfl]
      by_cases inside : position < cells.size
      · simp [inside]
      · simp [inside]
    · by_cases later : position + 1 ≤ i
      · have shifted : i - position = i - (position + 1) + 1 := by omega
        rw [if_neg here, shifted, List.getElem?_cons_succ]
        exact if_congr (by omega) rfl rfl
      · rw [if_neg (by omega), if_neg here, if_neg (by omega)]

/-- A cell holds the word that a loaded segment puts there, or what it held before. -/
theorem read_load (m : Memory) (s : Segment) {address : UInt64} (inside : address.toNat < m.size) :
    (m.load s.words s.start).read address = (s.wordAt? address).getD (m.read address) := by
  have inside : address.toNat < m.cells.size := inside
  rw [read, load, getElem?_storeFrom, Segment.wordAt?]
  by_cases above : s.start ≤ address
  · have above' : s.start.toNat ≤ address.toNat := above
    rw [if_pos above]
    by_cases below : address.toNat - s.start.toNat < s.words.length
    · rw [if_pos (by omega), List.getElem?_eq_getElem below]
      rfl
    · rw [if_neg (by omega), List.getElem?_eq_none (by omega)]
      rfl
  · have above' : ¬ s.start.toNat ≤ address.toNat := above
    rw [if_neg above, if_neg (by omega)]
    rfl

/-- The words that are stored are those whose offset leads to a cell. -/
theorem stored_eq_countP (m : Memory) (words : List Word) (start : UInt64) :
    m.stored words start =
      (List.range words.length).countP fun offset => start.toNat + offset < m.size := by
  rw [stored]
  induction words.length with
  | zero => simp
  | succ n ih =>
    rw [List.range_succ, List.countP_append, ← ih, List.countP_singleton]
    simp only [decide_eq_true_eq]
    split <;> omega

end Memory

namespace Image

/-- The places of the words of an image: every segment with each of its offsets. -/
def places (image : Image) : List (Segment × Nat) :=
  image.segments.flatMap fun s => (List.range s.words.length).map fun offset => (s, offset)

/-- The last segment counts first. -/
theorem wordAt?_concat (segments : List Segment) (s : Segment) (address : UInt64) :
    wordAt? ⟨segments ++ [s]⟩ address = (s.wordAt? address).or (wordAt? ⟨segments⟩ address) := by
  rw [wordAt?, wordAt?, List.reverse_append, List.reverse_singleton, List.singleton_append,
    List.findSome?_cons]
  cases s.wordAt? address <;> rfl

end Image

namespace Machine

/-- The last segment is loaded last. -/
theorem loadImage_concat (m : Machine) (segments : List Segment) (s : Segment) :
    m.loadImage ⟨segments ++ [s]⟩ = (m.loadImage ⟨segments⟩).load s.words s.start := by
  rw [loadImage, List.foldl_append]
  rfl

/-- Loading an image keeps the number of cells. -/
@[simp]
theorem size_loadImage (m : Machine) (image : Image) :
    (m.loadImage image).memory.size = m.memory.size := by
  obtain ⟨segments⟩ := image
  induction segments using List.reverseRecOn with
  | nil => rfl
  | append_singleton segments s ih => rw [loadImage_concat, load, Memory.size_load, ih]

/-- Loading an image changes nothing but memory. -/
theorem loadImage_eq (m : Machine) (image : Image) :
    m.loadImage image = { m with memory := (m.loadImage image).memory } := by
  obtain ⟨segments⟩ := image
  induction segments using List.reverseRecOn with
  | nil => rfl
  | append_singleton segments s ih => rw [loadImage_concat, load, ih]

/-- A cell holds the word that a loaded image puts there, or what it held before. -/
theorem read_loadImage (m : Machine) (image : Image) {address : UInt64}
    (inside : address.toNat < m.memory.size) :
    (m.loadImage image).memory.read address =
      (image.wordAt? address).getD (m.memory.read address) := by
  obtain ⟨segments⟩ := image
  induction segments using List.reverseRecOn with
  | nil => rfl
  | append_singleton segments s ih =>
    rw [loadImage_concat, load, Memory.read_load _ _ (by rwa [size_loadImage]), ih,
      Image.wordAt?_concat]
    cases s.wordAt? address <;> rfl

/-- The words that an image stores are those whose place is a cell. -/
theorem storedOfImage_eq_countP (m : Machine) (image : Image) :
    m.storedOfImage image =
      image.places.countP fun (s, offset) => s.start.toNat + offset < m.memory.size := by
  rw [storedOfImage, Image.places]
  induction image.segments using List.reverseRecOn with
  | nil => rfl
  | append_singleton segments s ih =>
    rw [List.foldl_append, List.flatMap_append, List.countP_append, ← ih, List.flatMap_singleton,
      List.countP_map, List.foldl_cons, List.foldl_nil, Memory.stored_eq_countP]
    rfl

/-- Loading an image and looking its words up agree on every cell; nothing but memory changes, and
the words that are counted are those whose place is a cell. -/
theorem loadImage_agrees (m : Machine) (image : Image) :
    (∀ address : UInt64, (m.loadImage image).memory.read address =
      if address.toNat < m.memory.size then (image.wordAt? address).getD (m.memory.read address)
      else 0) ∧
      (m.loadImage image).memory.size = m.memory.size ∧
      m.loadImage image = { m with memory := (m.loadImage image).memory } ∧
      m.storedOfImage image =
        image.places.countP fun (s, offset) => s.start.toNat + offset < m.memory.size := by
  refine ⟨fun address => ?_, m.size_loadImage image, m.loadImage_eq image,
    m.storedOfImage_eq_countP image⟩
  by_cases inside : address.toNat < m.memory.size
  · rw [if_pos inside, m.read_loadImage image inside]
  · rw [if_neg inside, Memory.read_of_size_le (by rw [size_loadImage]; omega)]

end Machine

end DirectionCentral
