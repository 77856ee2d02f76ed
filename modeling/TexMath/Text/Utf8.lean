/-!
# UTF-8 sizes

Offsets count the bytes of the UTF-8 form of a text.  `width` is that size for a list of
characters; it adds up over concatenation.
-/

namespace TexMath.Text

def width : List Char → Nat
  | [] => 0
  | c :: chars => c.utf8Size + width chars

@[simp] theorem width_nil : width [] = 0 := rfl

@[simp] theorem width_cons (c : Char) (chars : List Char) :
    width (c :: chars) = c.utf8Size + width chars := rfl

@[simp] theorem width_append (front back : List Char) :
    width (front ++ back) = width front + width back := by
  induction front with
  | nil => simp
  | cons c front ih => simp [ih, Nat.add_assoc]

theorem length_le_width (chars : List Char) : chars.length ≤ width chars := by
  induction chars with
  | nil => simp
  | cons c chars ih =>
      have := c.utf8Size_pos
      simp only [List.length_cons, width_cons]
      omega

theorem width_toList (text : String) : width text.toList = text.utf8ByteSize := by
  suffices h : ∀ chars : List Char, width chars = (String.ofList chars).utf8ByteSize by
    rw [h, String.ofList_toList]
  intro chars
  induction chars with
  | nil => simp
  | cons c chars ih =>
      have single : String.ofList (c :: chars) = String.singleton c ++ String.ofList chars := by
        rw [String.singleton_eq_ofList, ← String.ofList_append]
        rfl
      rw [width_cons, ih, single, String.utf8ByteSize_append, String.utf8ByteSize_singleton]

end TexMath.Text
