import Mathlib.Data.List.Basic

/-!
# Removing Escape Sequences

Text is cleaned in two stages: whole sequences that begin with an escape character
are taken out first, then single characters of a fixed set. Which sequences go is
left to a function of which only `StripsOnly` is known.

Where the escape characters are in the set themselves, what comes out of the second
stage has nothing for either stage to remove. Cleaning is then stable, and so is
cutting: every front of cleaned text is clean.

## Main definitions

* `Cleaned`: What may be missing from a text.
* `StripsOnly`: A function that removes sequences and nothing else.
* `clean`: Both stages.

## Theorems

* `cleaned_clean`: What is missing from cleaned text.
* `clean_of_allowed`: Text without characters of the set is left alone.
* `clean_clean`: Cleaning twice is cleaning once.
-/

namespace Escapes

variable {α : Type*} {starts dropped : α → Bool} {strip : List α → List α} {text rest : List α}

/-- The second text is the first without some sequences that begin with an escape
    character and without the characters of the set; all others are kept in order. -/
inductive Cleaned (starts dropped : α → Bool) : List α → List α → Prop
  | nil : Cleaned starts dropped [] []
  | keep {c : α} {text rest : List α} (hkept : dropped c = false)
      (h : Cleaned starts dropped text rest) : Cleaned starts dropped (c :: text) (c :: rest)
  | drop {c : α} {text rest : List α} (hdropped : dropped c = true)
      (h : Cleaned starts dropped text rest) : Cleaned starts dropped (c :: text) rest
  | escape {c : α} {text rest : List α} (hstart : starts c = true) (sequence : List α)
      (h : Cleaned starts dropped text rest) :
      Cleaned starts dropped (c :: (sequence ++ text)) rest

/-- Only sequences that begin with an escape character are removed. -/
def StripsOnly (starts : α → Bool) (strip : List α → List α) : Prop :=
  ∀ text, Cleaned starts (fun _ => false) text (strip text)

theorem stripsOnly_id : StripsOnly starts (id : List α → List α) := by
  intro text
  induction text with
  | nil => exact .nil
  | cons c rest ih => exact .keep rfl ih

def clean (strip : List α → List α) (dropped : α → Bool) (text : List α) : List α :=
  (strip text).filter fun c => !dropped c

/-- Text with nothing to remove is left alone. -/
theorem Cleaned.eq_of_allowed (h : Cleaned starts dropped text rest)
    (hstarts : ∀ c ∈ text, starts c = false) (hdropped : ∀ c ∈ text, dropped c = false) :
    rest = text := by
  induction h with
  | nil => rfl
  | keep _ _ ih =>
      rw [ih (fun c hc => hstarts c (List.mem_cons_of_mem _ hc))
        (fun c hc => hdropped c (List.mem_cons_of_mem _ hc))]
  | drop hdrop _ _ => exact absurd hdrop (by simp [hdropped _ List.mem_cons_self])
  | escape hstart _ _ _ => exact absurd hstart (by simp [hstarts _ List.mem_cons_self])

theorem Cleaned.filter (h : Cleaned starts (fun _ => false) text rest) :
    Cleaned starts dropped text (rest.filter fun c => !dropped c) := by
  induction h with
  | nil => exact .nil
  | @keep c text rest _ _ ih =>
      cases hc : dropped c with
      | false =>
          rw [List.filter_cons_of_pos (by simp [hc])]
          exact .keep hc ih
      | true =>
          rw [List.filter_cons_of_neg (by simp [hc])]
          exact .drop hc ih
  | drop hdrop _ _ => cases hdrop
  | escape hstart sequence _ ih => exact .escape hstart sequence ih

/-- The second stage drops single characters from what the first one left. -/
theorem cleaned_clean (h : StripsOnly starts strip) (text : List α) :
    Cleaned starts dropped text (clean strip dropped text) :=
  (h text).filter

theorem not_dropped_of_mem_clean {c : α} (hc : c ∈ clean strip dropped text) :
    dropped c = false := by
  simpa using (List.mem_filter.1 hc).2

section

variable (h : StripsOnly starts strip) (hstarts : ∀ c, starts c = true → dropped c = true)

include h hstarts

/-- Where escape characters are in the set, text without characters of the set has
    nothing to remove. -/
theorem clean_of_allowed (hallowed : ∀ c ∈ text, dropped c = false) :
    clean strip dropped text = text := by
  refine (cleaned_clean h text).eq_of_allowed (fun c hc => ?_) hallowed
  cases hstart : starts c with
  | false => rfl
  | true => exact absurd (hstarts c hstart) (by simp [hallowed c hc])

theorem clean_clean (text : List α) :
    clean strip dropped (clean strip dropped text) = clean strip dropped text :=
  clean_of_allowed h hstarts fun _ => not_dropped_of_mem_clean

/-- A front of cleaned text is clean. -/
theorem clean_of_front (hfront : rest <+: clean strip dropped text) :
    clean strip dropped rest = rest :=
  clean_of_allowed h hstarts fun _ hc => not_dropped_of_mem_clean (hfront.subset hc)

end

end Escapes
