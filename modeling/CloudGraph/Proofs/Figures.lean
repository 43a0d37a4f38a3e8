import CloudGraph.Yaml.Scalar
import Mathlib.Data.List.Basic

/-!
# Scalars that are no texts

Numbers, moments and the words of the language are written in letters, digits and a few signs,
`figures_scalarText`. So there is never a quote or a line end in them.
-/

namespace CloudGraph.Yaml

/-- The characters that numbers, moments and words of the language are written in. -/
def isFigure (c : Char) : Bool :=
  c.isAlphanum || c = '-' || c = '+' || c = '.' || c = ':' || c = ' '

/-- A text of figures only. -/
def Figures (text : List Char) : Prop :=
  text.all isFigure = true

instance : DecidablePred Figures := fun text =>
  inferInstanceAs (Decidable (text.all isFigure = true))

theorem figures_iff {text : List Char} : Figures text ↔ ∀ c ∈ text, isFigure c = true :=
  List.all_eq_true

theorem figures_append {first second : List Char} :
    Figures (first ++ second) ↔ Figures first ∧ Figures second := by
  simp [Figures]

theorem figures_cons {c : Char} {text : List Char} :
    Figures (c :: text) ↔ isFigure c = true ∧ Figures text := by
  simp [Figures]

theorem Figures.of_subset {part text : List Char} (figures : Figures text) (subset : part ⊆ text) :
    Figures part :=
  figures_iff.2 fun c member => figures_iff.1 figures c (subset member)

theorem Figures.newline_not_mem {text : List Char} (figures : Figures text) : '\n' ∉ text :=
  fun member => absurd (figures_iff.1 figures _ member) (by decide)

theorem Figures.quote_not_mem {text : List Char} (figures : Figures text) : '\'' ∉ text :=
  fun member => absurd (figures_iff.1 figures _ member) (by decide)

theorem figures_digits (n : Nat) : Figures (Nat.toDigits 10 n) := by
  refine figures_iff.2 fun c member => ?_
  have digit := Nat.isDigit_of_mem_toDigits (by decide) (by decide) member
  simp [isFigure, Char.isAlphanum, digit]

theorem figures_zeros (count : Nat) : Figures (List.replicate count '0') := by
  refine figures_iff.2 fun c member => ?_
  rw [(List.mem_replicate.1 member).2]
  rfl

theorem figures_int (value : Int) : Figures (toString value).toList := by
  cases value with
  | ofNat n =>
      change Figures (Nat.repr n).toList
      rw [Nat.repr_eq_ofList_toDigits, String.toList_ofList]
      exact figures_digits n
  | negSucc n =>
      change Figures ("-" ++ Nat.repr (n + 1)).toList
      rw [Nat.repr_eq_ofList_toDigits, String.toList_append, figures_append]
      refine ⟨by decide, ?_⟩
      rw [String.toList_ofList]
      exact figures_digits (n + 1)

theorem figures_exponentText (exponent : Int) : Figures (Double.exponentText exponent).toList := by
  have digits := figures_digits exponent.natAbs
  unfold Double.exponentText Double.digitsOf
  simp only [String.toList_append, String.toList_ofList, figures_append]
  constructor
  · split <;> decide
  · split
    · exact figures_cons.2 ⟨rfl, digits⟩
    · exact digits

theorem figures_layout {digits : List Char} (figures : Figures digits) (lead : Int) :
    Figures (Double.layout digits lead).toList := by
  have point : Figures ".".toList := by decide
  have exponent := figures_exponentText lead
  unfold Double.layout
  split
  · simp only [String.toList_append, String.toList_ofList, figures_append]
    exact ⟨by decide, figures_zeros _, figures⟩
  · split
    · simp only [String.toList_append, String.toList_ofList, figures_append]
      refine ⟨⟨⟨figures.of_subset (List.take_subset _ _), figures_zeros _⟩, point⟩, ?_⟩
      split
      · decide
      · rw [String.toList_ofList]
        exact figures.of_subset (List.drop_subset _ _)
    · split
      · decide
      · simp only [String.toList_append, String.toList_singleton, figures_append]
        exact ⟨figures, exponent⟩
      · rw [figures_cons] at figures
        simp only [String.toList_append, String.toList_singleton, String.toList_ofList,
          figures_append]
        exact ⟨⟨⟨figures_cons.2 ⟨figures.1, rfl⟩, point⟩, figures.2⟩, exponent⟩

theorem figures_double (value : Double) : Figures value.text.toList := by
  cases value with
  | nan => decide
  | infinite negative => cases negative <;> decide
  | finite negative significand exponent =>
      simp only [Double.text, String.toList_append, figures_append]
      constructor
      · split <;> decide
      · split
        · decide
        · have digits := figures_digits (Double.shortest significand exponent).1
          refine figures_layout (digits.of_subset fun c member => ?_) _
          rw [Double.dropZeros, List.mem_reverse] at member
          simpa [Double.digitsOf] using (List.dropWhile_suffix _).subset member

theorem figures_floatText (value : Double) : Figures (floatText value).toList := by
  have figures := figures_double value
  unfold floatText
  split
  · decide
  · split <;> decide
  · dsimp only
    split
    · rwa [String.toList_ofList]
    · rw [String.toList_ofList, figures_append, figures_append]
      exact ⟨⟨figures.of_subset (List.takeWhile_subset _), by decide⟩,
        figures.of_subset (List.drop_subset _ _)⟩

theorem figures_paddedNumber (width n : Nat) : Figures (paddedNumber width n).toList := by
  rw [paddedNumber, String.toList_ofList, figures_append]
  exact ⟨figures_zeros _, figures_digits n⟩

theorem figures_day (day : Day) : Figures day.text.toList := by
  have dash : Figures "-".toList := by decide
  simp only [Day.text, String.toList_append, figures_append, figures_paddedNumber, dash, and_self]

theorem figures_clock (clock : Clock) : Figures clock.text.toList := by
  have colon : Figures ":".toList := by decide
  simp only [Clock.text, String.toList_append, figures_append, figures_paddedNumber, colon,
    true_and]
  split
  · decide
  · rw [String.toList_append, figures_append]
    exact ⟨by decide, figures_paddedNumber _ _⟩

theorem figures_offset (minutes : Int) : Figures (Moment.offsetText minutes).toList := by
  have colon : Figures ":".toList := by decide
  simp only [Moment.offsetText, String.toList_append, figures_append, figures_paddedNumber, colon,
    and_true]
  split <;> decide

theorem figures_moment (value : Moment) : Figures (value.isoText " ").toList := by
  cases value with
  | date day => exact figures_day day
  | time clock => exact figures_clock clock
  | dateTime day clock offset =>
      simp only [Moment.isoText, String.toList_append, figures_append]
      refine ⟨⟨⟨figures_day day, by decide⟩, figures_clock clock⟩, ?_⟩
      cases offset with
      | none => decide
      | some minutes => exact figures_offset minutes

/-- All that is not a text is written in figures. -/
theorem figures_scalarText {scalar : Atom} (noText : ∀ text, scalar ≠ .text text) :
    Figures (scalarText scalar).1 := by
  cases scalar with
  | null => decide
  | bool value => cases value <;> decide
  | int value => exact figures_int value
  | float value => exact figures_floatText value
  | text value => exact absurd rfl (noText value)
  | moment value => exact figures_moment value

end CloudGraph.Yaml
