import Mathlib.Data.List.Basic

namespace BreadMind
namespace Text

/-!
# Texts and their bytes

A text may have surrogates that stand alone; these have no bytes.  What is read
has its line ends translated, what is written has not.
-/

inductive CodePoint where
  | scalar (letter : Char)
  | surrogate (number : Fin 2048)
  deriving DecidableEq

def encodeLetters (text : List Char) : List UInt8 := text.flatMap String.utf8EncodeChar

def decode (bytes : List UInt8) : Option (List Char) :=
  bytes.toByteArray.utf8Decode?.map Array.toList

def CodePoint.bytes : CodePoint -> List UInt8
  | .scalar letter => String.utf8EncodeChar letter
  | .surrogate _ => []

def bytesOf (text : List CodePoint) : List UInt8 := text.flatMap CodePoint.bytes

def CodePoint.isScalar : CodePoint -> Bool
  | .scalar _ => true
  | .surrogate _ => false

def Writable (text : List CodePoint) : Prop := ∀ point ∈ text, point.isScalar = true

instance (text : List CodePoint) : Decidable (Writable text) :=
  inferInstanceAs (Decidable (∀ point ∈ text, point.isScalar = true))

/-- Line ends are read as line feeds. -/
def universal : List Char -> List Char
  | '\r' :: '\n' :: rest => '\n' :: universal rest
  | '\r' :: rest => '\n' :: universal rest
  | letter :: rest => letter :: universal rest
  | [] => []

def scalars (text : List Char) : List CodePoint := text.map CodePoint.scalar

variable {text : List Char} {bytes : List UInt8}

theorem decode_eq_some_iff : decode bytes = some text <-> encodeLetters text = bytes := by
  unfold decode encodeLetters
  constructor
  · intro decoded
    rcases Option.map_eq_some_iff.mp decoded with ⟨letters, found, rfl⟩
    have some' : bytes.toByteArray.utf8Decode?.isSome := Option.isSome_iff_exists.mpr ⟨letters, found⟩
    have back := @ByteArray.utf8Encode_get_utf8Decode? _ some'
    rw [Option.get_of_eq_some some' found] at back
    exact List.toByteArray_inj.mp back
  · rintro rfl
    have forth := @List.utf8Decode?_utf8Encode text
    unfold List.utf8Encode at forth
    rw [forth]
    rfl

theorem bytesOf_append (first second : List CodePoint) :
    bytesOf (first ++ second) = bytesOf first ++ bytesOf second :=
  List.flatMap_append

theorem bytesOf_scalars (text : List Char) : bytesOf (scalars text) = encodeLetters text := by
  unfold bytesOf scalars encodeLetters
  rw [List.flatMap_map]
  rfl

theorem writable_scalars (text : List Char) : Writable (scalars text) := by
  intro point member
  rcases List.mem_map.mp member with ⟨letter, _, rfl⟩
  rfl

theorem writable_append {first second : List CodePoint} :
    Writable (first ++ second) <-> Writable first ∧ Writable second :=
  List.forall_mem_append

theorem scalars_of_writable {text : List CodePoint} (writable : Writable text) :
    ∃ letters, text = scalars letters := by
  induction text with
  | nil => exact ⟨[], rfl⟩
  | cons point rest ih =>
    rcases ih fun other member => writable other (List.mem_cons_of_mem _ member)
      with ⟨letters, rfl⟩
    cases point with
    | scalar letter => exact ⟨letter :: letters, rfl⟩
    | surrogate number => cases writable _ List.mem_cons_self

theorem bytesOf_injective {first second : List CodePoint} (firstWritable : Writable first)
    (secondWritable : Writable second) (same : bytesOf first = bytesOf second) : first = second := by
  rcases scalars_of_writable firstWritable with ⟨letters, rfl⟩
  rcases scalars_of_writable secondWritable with ⟨others, rfl⟩
  rw [bytesOf_scalars, bytesOf_scalars] at same
  have decoded := decode_eq_some_iff.mpr same
  rw [decode_eq_some_iff.mpr rfl] at decoded
  rw [Option.some.inj decoded]

theorem return_not_mem_universal (text : List Char) : '\r' ∉ universal text := by
  fun_induction universal text with
  | case1 rest ih => simpa using ih
  | case2 rest _ ih => simpa using ih
  | case3 letter rest _ notReturn ih =>
    rw [List.mem_cons, not_or]
    exact ⟨fun same => notReturn same.symm, ih⟩
  | case4 => exact List.not_mem_nil

theorem universal_of_not_mem (free : '\r' ∉ text) : universal text = text := by
  fun_induction universal text with
  | case1 rest ih => exact absurd List.mem_cons_self free
  | case2 rest _ ih => exact absurd List.mem_cons_self free
  | case3 letter rest _ _ ih => rw [ih fun member => free (List.mem_cons_of_mem _ member)]
  | case4 => rfl

end Text
end BreadMind
