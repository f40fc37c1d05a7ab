/-
QueryTerms.Proofs.LetterCase — words that are understood in letters of either case.

The names of dialects, the words for a parameter's value and the word for NULL may be written in
capitals, in small letters or in both. Each is looked up by writing the text in small letters first;
said without that, a text is understood exactly if it agrees with one of the known words character by
character, but for the case of ASCII letters (`SameLetters`). Other letters have no case here: the long
s is no s, and the Kelvin sign no k.

  §1  characters and texts that are the same but for case
  §2  the words that are looked up
-/
import Mathlib.Data.List.Forall2
import QueryTerms.CommandLine.Run

namespace QueryTerms

/-! ## 1. Characters and texts -/

/-- The same character, or an ASCII capital and its small letter. -/
inductive SameLetter : Char → Char → Prop
  | same (c : Char) : SameLetter c c
  | capital {c d : Char} : c.isUpper = true → d.toNat = c.toNat + 32 → SameLetter c d
  | small {c d : Char} : d.isUpper = true → c.toNat = d.toNat + 32 → SameLetter c d

/-- The same text but for the case of ASCII letters. -/
def SameLetters (u v : String) : Prop :=
  List.Forall₂ SameLetter u.toList v.toList

theorem isUpper_iff_val {c : Char} : c.isUpper = true ↔ 'A'.val ≤ c.val ∧ c.val ≤ 'Z'.val :=
  decide_eq_true_iff

theorem isUpper_iff {c : Char} : c.isUpper = true ↔ 65 ≤ c.toNat ∧ c.toNat ≤ 90 := by
  rw [isUpper_iff_val, UInt32.le_iff_toNat_le, UInt32.le_iff_toNat_le]
  exact Iff.rfl

/-- A small letter is 32 above its capital. -/
theorem toNat_toLower_of_isUpper {c : Char} (h : c.isUpper = true) :
    c.toLower.toNat = c.toNat + 32 := by
  have hbounds := isUpper_iff.1 h
  have hlower : c.toLower.val = c.val + ('a'.val - 'A'.val) :=
    congrArg Char.val (dif_pos (isUpper_iff_val.1 h))
  show c.toLower.val.toNat = c.toNat + 32
  rw [hlower, UInt32.toNat_add]
  exact Nat.mod_eq_of_lt (show c.toNat + 32 < 4294967296 by omega)

theorem toLower_of_not_isUpper {c : Char} (h : c.isUpper ≠ true) : c.toLower = c :=
  dif_neg fun hcapital => h (isUpper_iff_val.2 hcapital)

/-- Characters have the same small letter exactly if they are the same but for case. -/
theorem toLower_eq_toLower_iff {c d : Char} : c.toLower = d.toLower ↔ SameLetter c d := by
  constructor
  · intro h
    by_cases hc : c.isUpper = true
    · by_cases hd : d.isUpper = true
      · have hnumbers := congrArg Char.toNat h
        rw [toNat_toLower_of_isUpper hc, toNat_toLower_of_isUpper hd] at hnumbers
        obtain rfl : c = d := Char.toNat_inj.1 (by omega)
        exact .same c
      · rw [toLower_of_not_isUpper hd] at h
        exact .capital hc (by rw [← h, toNat_toLower_of_isUpper hc])
    · by_cases hd : d.isUpper = true
      · rw [toLower_of_not_isUpper hc] at h
        exact .small hd (by rw [h, toNat_toLower_of_isUpper hd])
      · rw [toLower_of_not_isUpper hc, toLower_of_not_isUpper hd] at h
        rw [h]
        exact .same d
  · -- The small letter itself is no capital, so it stays as it is.
    have hsmall : ∀ {c d : Char}, c.isUpper = true → d.toNat = c.toNat + 32 →
        c.toLower = d.toLower := by
      intro c d hc hd
      have hnot : d.isUpper ≠ true := fun hupper => by
        have hbounds := isUpper_iff.1 hc
        have hbounds' := isUpper_iff.1 hupper
        omega
      rw [toLower_of_not_isUpper hnot]
      exact Char.toNat_inj.1 (by rw [toNat_toLower_of_isUpper hc, hd])
    rintro (_ | ⟨hc, hd⟩ | ⟨hd, hc⟩)
    · rfl
    · exact hsmall hc hd
    · exact (hsmall hd hc).symm

/-- Texts are the same in small letters exactly if they are the same but for case. -/
theorem map_toLower_eq_iff (u v : String) :
    u.toList.map Char.toLower = v.toList.map Char.toLower ↔ SameLetters u v := by
  rw [SameLetters, ← List.forall₂_eq_eq_eq, List.forall₂_map_left_iff, List.forall₂_map_right_iff]
  simp only [toLower_eq_toLower_iff]

instance (u v : String) : Decidable (SameLetters u v) :=
  decidable_of_iff _ (map_toLower_eq_iff u v)

/-- A word in small letters is what a text is in small letters exactly if they are the same but for
case. -/
theorem ofList_toLower_eq_iff {word : String} (hword : word.toList.map Char.toLower = word.toList)
    (text : String) : String.ofList (text.toList.map Char.toLower) = word ↔ SameLetters text word := by
  rw [← map_toLower_eq_iff, hword, ← String.toList_inj, String.toList_ofList]

/-! ## 2. Words -/

/-- The text is one of the words but for the case of its letters. -/
def Among (words : List String) (text : String) : Prop :=
  ∃ word ∈ words, SameLetters text word

/-- Among words in small letters: those that the text is in small letters. -/
theorem among_iff {words : List String}
    (hwords : ∀ word ∈ words, word.toList.map Char.toLower = word.toList) (text : String) :
    Among words text ↔ String.ofList (text.toList.map Char.toLower) ∈ words := by
  constructor
  · rintro ⟨word, hword, hsame⟩
    rwa [(ofList_toLower_eq_iff (hwords word hword) text).2 hsame]
  · intro hmem
    exact ⟨_, hmem, (ofList_toLower_eq_iff (hwords _ hmem) text).1 rfl⟩

/-- The names of a kind of dialect. -/
def Dialect.Kind.userNames : Dialect.Kind → List String
  | .postgres => ["postgres", "postgresql"]
  | .sqlite => ["sqlite"]
  | .mysql => ["mysql"]

/-- A kind is named by its names in letters of either case, and by no other text. -/
theorem Dialect.Kind.ofUserName?_eq_some_iff {text : String} {kind : Dialect.Kind} :
    ofUserName? text = some kind ↔ Among kind.userNames text := by
  have hsmall : ∀ word ∈ kind.userNames, word.toList.map Char.toLower = word.toList := by
    cases kind <;> decide
  rw [among_iff hsmall, ofUserName?]
  split <;> cases kind <;> simp_all [userNames]

namespace CommandLine

/-- The words for a truth value, or for NULL. -/
def valueWords : Option Bool → List String
  | some true => ["true", "t", "1"]
  | some false => ["false", "f", "0"]
  | none => ["null"]

/-- A parameter's text names a value by its words in letters of either case, and by no other text. -/
theorem parameterValue?_eq_some_iff {text : String} {value : Option Bool} :
    parameterValue? text = some value ↔ Among (valueWords value) text := by
  have hsmall : ∀ word ∈ valueWords value, word.toList.map Char.toLower = word.toList := by
    rcases value with _ | _ | _ <;> decide
  rw [among_iff hsmall, parameterValue?]
  split <;> rcases value with _ | _ | _ <;> simp_all [valueWords]

/-- A value is NULL exactly if it is the word `null` in letters of either case. -/
theorem columnOf_eq_none_iff {value : String} : columnOf value = none ↔ SameLetters value "null" := by
  have hsmall : "null".toList.map Char.toLower = "null".toList := by decide
  rw [← map_toLower_eq_iff, hsmall, columnOf]
  split <;> simp_all

/-- Any other value is itself. -/
theorem columnOf_of_not_null {value : String} (h : ¬ SameLetters value "null") :
    columnOf value = some value := by
  have hsmall : "null".toList.map Char.toLower = "null".toList := by decide
  rw [← map_toLower_eq_iff, hsmall] at h
  rw [columnOf, if_neg h]

end CommandLine

end QueryTerms
