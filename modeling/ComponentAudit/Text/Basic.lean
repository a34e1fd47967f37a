import ComponentAudit.Text.Letter

/-!
Texts as lists of characters, with the trimming, splitting and searching that the scanners share.
Offsets and lengths count code points. Each operation's own small laws stand beside it: a split loses
nothing (`join_splitOn`), a cut keeps what is on either side, a search finds exactly the stretches of
neighbouring characters (`mentions_iff_infix`), and trimming never lengthens.
-/

namespace ComponentAudit

/-- A text is the list of its characters. -/
abbrev Text := List Char

instance : Coe String Text := ⟨String.toList⟩

namespace Text

def trimLeft (t : Text) : Text := t.dropWhile isSpace

def trimRight (t : Text) : Text := (t.reverse.dropWhile isSpace).reverse

def trim (t : Text) : Text := trimRight (trimLeft t)

def isBlank (t : Text) : Bool := t.all isSpace

theorem length_dropWhile_le (p : Char → Bool) (t : Text) : (t.dropWhile p).length ≤ t.length :=
  (List.dropWhile_sublist p).length_le

theorem length_trim_le (t : Text) : (trim t).length ≤ t.length := by
  have h := length_dropWhile_le isSpace (trimLeft t).reverse
  have h' := length_dropWhile_le isSpace t
  simp only [trim, trimRight, trimLeft, List.length_reverse] at h ⊢
  exact Nat.le_trans h h'

/-- Puts a character in front of the first of some texts. -/
def consHead (c : Char) : List Text → List Text
  | [] => [[c]]
  | first :: more => (c :: first) :: more

/-- The runs of characters that are not white space. -/
def words : Text → List Text
  | [] => []
  | c :: rest =>
    if isSpace c then words rest
    else if rest.head?.all isSpace then [c] :: words rest
    else consHead c (words rest)

def join (separator : Text) (parts : List Text) : Text := separator.intercalate parts

/-- The words with one blank between neighbours. -/
def squeeze (t : Text) : Text := join " " (words t)

/-- The parts between occurrences of one character; there is always at least one part. -/
def splitOn (separator : Char) : Text → List Text
  | [] => [[]]
  | c :: rest =>
    if c == separator then [] :: splitOn separator rest else consHead c (splitOn separator rest)

theorem consHead_ne_nil (c : Char) (parts : List Text) : consHead c parts ≠ [] := by
  cases parts <;> simp [consHead]

theorem splitOn_ne_nil (separator : Char) (t : Text) : splitOn separator t ≠ [] := by
  cases t with
  | nil => simp [splitOn]
  | cons c t =>
    rw [splitOn]
    split
    · simp
    · exact consHead_ne_nil c _

theorem join_consHead (separator : Text) (c : Char) {parts : List Text} (h : parts ≠ []) :
    join separator (consHead c parts) = c :: join separator parts := by
  obtain ⟨first, more, rfl⟩ := List.exists_cons_of_ne_nil h
  cases more <;> simp [consHead, join, List.intercalate, List.intersperse]

/-- Splitting loses nothing: the parts with the separator between them are the text. -/
theorem join_splitOn (separator : Char) (t : Text) : join [separator] (splitOn separator t) = t := by
  induction t with
  | nil => rfl
  | cons c t ih =>
    rw [splitOn]
    split
    · rename_i h
      obtain ⟨first, more, he⟩ := List.exists_cons_of_ne_nil (splitOn_ne_nil separator t)
      rw [he] at ih ⊢
      rw [eq_of_beq h]
      simpa [join, List.intercalate] using ih
    · rw [join_consHead _ _ (splitOn_ne_nil separator t), ih]

/-- The rest behind `head`, if the text opens with it. -/
def dropPrefix? (head t : Text) : Option Text :=
  if head.isPrefixOf t then some (t.drop head.length) else none

theorem eq_append_of_dropPrefix? {head t rest : Text} (h : dropPrefix? head t = some rest) :
    t = head ++ rest := by
  unfold dropPrefix? at h
  split at h
  · rename_i hp
    obtain ⟨u, rfl⟩ := List.isPrefixOf_iff_prefix.mp hp
    simp only [List.drop_left, Option.some.injEq] at h
    rw [h]
  · exact absurd h (by simp)

/-- The parts on either side of the first occurrence of `needle`. -/
def cut? (needle : Text) : Text → Option (Text × Text)
  | [] => if needle.isEmpty then some ([], []) else none
  | c :: rest =>
    if needle.isPrefixOf (c :: rest) then some ([], (c :: rest).drop needle.length)
    else (cut? needle rest).map fun (head, tail) => (c :: head, tail)

theorem eq_append_of_cut? {needle t head tail : Text} (h : cut? needle t = some (head, tail)) :
    t = head ++ needle ++ tail := by
  induction t generalizing head tail with
  | nil =>
    unfold cut? at h
    split at h
    · rename_i he
      simp only [Option.some.injEq, Prod.mk.injEq] at h
      simp [← h.1, ← h.2, List.isEmpty_iff.mp he]
    · exact absurd h (by simp)
  | cons c rest ih =>
    unfold cut? at h
    split at h
    · rename_i hp
      simp only [Option.some.injEq, Prod.mk.injEq] at h
      obtain ⟨u, hu⟩ := List.isPrefixOf_iff_prefix.mp hp
      rw [← h.1, ← h.2, ← hu]
      simp
    · simp only [Option.map_eq_some_iff, Prod.exists, Prod.mk.injEq] at h
      obtain ⟨a, b, hab, rfl, rfl⟩ := h
      simp [ih hab]

def mentions (t needle : Text) : Bool := (cut? needle t).isSome

theorem mentions_cons (c : Char) (t needle : Text) :
    mentions (c :: t) needle = (needle.isPrefixOf (c :: t) || mentions t needle) := by
  unfold mentions
  rw [cut?]
  by_cases h : needle.isPrefixOf (c :: t) = true
  · simp [h]
  · simp only [Bool.not_eq_true] at h
    simp [h]

/-- A text mentions exactly its stretches of neighbouring characters. -/
theorem mentions_iff_infix (t needle : Text) : mentions t needle = true ↔ needle <:+: t := by
  induction t with
  | nil => cases needle <;> simp [mentions, cut?]
  | cons c t ih =>
    rw [mentions_cons, Bool.or_eq_true, ih, List.isPrefixOf_iff_prefix, List.infix_cons_iff]

def indexOf? (t needle : Text) : Option Nat := (cut? needle t).map (·.1.length)

/-- The part in front of the first occurrence of `needle`, or the whole text. -/
def upTo (t needle : Text) : Text := ((cut? needle t).map (·.1)).getD t

/-- The lines, without their line breaks; `\r\n` is one break, and a final break opens no line. -/
def lines : Text → List Text
  | [] => []
  | '\r' :: '\n' :: rest => [] :: lines rest
  | c :: rest =>
    if isLineBreak c then [] :: lines rest else consHead c (lines rest)

def ofNat (n : Nat) : Text := Nat.toDigits 10 n

def ofInt : Int → Text
  | .ofNat n => ofNat n
  | .negSucc n => '-' :: ofNat (n + 1)

def le : Text → Text → Bool
  | [], _ => true
  | _ :: _, [] => false
  | a :: s, b :: t => a.toNat < b.toNat || (a == b && le s t)

/-- The texts in lexicographic order; equal texts are kept. -/
def sort (texts : List Text) : List Text := texts.mergeSort le

end Text

end ComponentAudit
