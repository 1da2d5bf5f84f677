import TurboAgent.Data.Text
import TurboAgent.Data.Utf8

/-!
# The order of C strings

`strcmp` compares byte by byte.  Sorting with it puts equal strings next to each other and keeps
all others apart.
-/

namespace TurboAgent

/-- What `strcmp` compares. -/
def byteCodes (text : String) : List Nat :=
  (utf8 text).map UInt8.toNat

theorem byteCodes_injective : Function.Injective byteCodes := by
  intro left right same
  have toNat : Function.Injective UInt8.toNat := fun _ _ => UInt8.toNat_inj.mp
  exact utf8_injective (List.map_injective_iff.mpr toNat same)

/-- `strcmp(left, right) <= 0`. -/
def StrLe (left right : String) : Prop := byteCodes left ≤ byteCodes right

instance : DecidableRel StrLe := fun left right =>
  inferInstanceAs (Decidable (byteCodes left ≤ byteCodes right))

instance : Std.Total StrLe := ⟨fun left right => le_total (byteCodes left) (byteCodes right)⟩

instance : IsTrans String StrLe := ⟨fun _ _ _ => le_trans⟩

instance : Std.Antisymm StrLe :=
  ⟨fun _ _ forth back => byteCodes_injective (le_antisymm forth back)⟩

/-- `qsort` of strings with `strcmp`. -/
def sortStrings (texts : List CString) : List CString :=
  texts.insertionSort fun left right => StrLe left.1 right.1

theorem mem_sortStrings {texts : List CString} {text : CString} :
    text ∈ sortStrings texts ↔ text ∈ texts :=
  List.mem_insertionSort _

theorem sortStrings_sorted (texts : List CString) :
    (sortStrings texts).Pairwise fun left right => StrLe left.1 right.1 := by
  have total : Std.Total fun left right : CString => StrLe left.1 right.1 :=
    ⟨fun left right => le_total (byteCodes left.1) (byteCodes right.1)⟩
  have transitive : IsTrans CString fun left right => StrLe left.1 right.1 :=
    ⟨fun _ _ _ => le_trans⟩
  exact List.pairwise_insertionSort _ texts

theorem sortStrings_nodup {texts : List CString} : (sortStrings texts).Nodup ↔ texts.Nodup :=
  (List.perm_insertionSort _ texts).nodup_iff

end TurboAgent
