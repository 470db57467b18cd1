/-!
# Offsets in bytes

Parts of a text are cut out at offsets that count bytes of its UTF-8 form.  An offset inside of a
character cuts nothing out.
-/

namespace ReaderWriter.Text

def byteSize : List Char → Nat
  | [] => 0
  | c :: rest => c.utf8Size + byteSize rest

/-- The first `n` bytes of a text and the rest, if the offset lies between two characters. -/
def splitBytes? : Nat → List Char → Option (List Char × List Char)
  | 0, text => some ([], text)
  | _ + 1, [] => none
  | n + 1, c :: rest =>
    if c.utf8Size ≤ n + 1 then
      (splitBytes? (n + 1 - c.utf8Size) rest).map fun (front, back) => (c :: front, back)
    else none

/-- What stands between two offsets, if both lie between two characters. -/
def cut? (text : List Char) (first last : Nat) : Option (List Char) :=
  (splitBytes? first text).bind fun (_, back) =>
    (splitBytes? (last - first) back).map fun (front, _) => front

theorem splitBytes?_append (front back : List Char) :
    splitBytes? (byteSize front) (front ++ back) = some (front, back) := by
  induction front with
  | nil => cases back <;> rfl
  | cons c rest ih =>
    obtain ⟨n, hn⟩ : ∃ n, byteSize (c :: rest) = n + 1 :=
      ⟨byteSize (c :: rest) - 1, by have := c.utf8Size_pos; simp only [byteSize]; omega⟩
    have hle : c.utf8Size ≤ n + 1 := by simp only [byteSize] at hn; omega
    have hrest : n + 1 - c.utf8Size = byteSize rest := by simp only [byteSize] at hn; omega
    rw [hn, List.cons_append, splitBytes?, if_pos hle, hrest, ih]
    rfl

theorem append_eq_of_splitBytes? {n : Nat} {text front back : List Char}
    (h : splitBytes? n text = some (front, back)) : front ++ back = text := by
  induction text generalizing n front with
  | nil =>
    cases n with
    | zero => simp_all [splitBytes?]
    | succ n => simp [splitBytes?] at h
  | cons c rest ih =>
    cases n with
    | zero => simp_all [splitBytes?]
    | succ n =>
      simp only [splitBytes?] at h
      split at h
      · obtain ⟨⟨f, b⟩, hsplit, heq⟩ := Option.map_eq_some_iff.1 h
        simp only [Prod.mk.injEq] at heq
        obtain ⟨rfl, rfl⟩ := heq
        simp [ih hsplit]
      · simp at h

theorem cut?_append (front part back : List Char) :
    cut? (front ++ (part ++ back)) (byteSize front) (byteSize front + byteSize part)
      = some part := by
  simp [cut?, splitBytes?_append]

end ReaderWriter.Text
