import Mathlib.Data.List.Infix
import Mathlib.Logic.Relation

/-!
# Line Endings

A line ends in `lf` or in `cr` followed by `lf`, over any alphabet. `normalize`
makes the second into the first, in one pass: a `cr` before a `cr lf` stays, so the
result can contain `cr lf` again and a second pass could do more.

`Replaces` describes the pass by the pieces between the matches, and `Restyled` by
what it forgets: the style of the line endings, and nothing else
(`normalize_eq_iff`). Two texts agree when their normal forms are equal up to one
`lf` at the end. `Law` collects what this accepts and what it does not.

## Main definitions

* `normalize`, `agree`: The pass, and the comparison.
* `Replaces`: Replacing every `cr lf`.
* `Restyled`: Texts that differ in the style of their line endings.
* `Law`: What a comparison of lines accepts.

## Theorems

* `normalize_append`: The pass splits except inside a match.
* `replaces_iff`: The pass replaces every `cr lf`.
* `normalize_eq_iff`: The pass forgets the style of the line endings only.
* `agree_law`: The comparison.
-/

namespace Newlines

variable {α : Type} [DecidableEq α] {cr lf : α} {c : α} {u a n b e : List α} {v : List α}

/-- Drop each `cr` directly before an `lf`. -/
def normalize (cr lf : α) : List α → List α
  | [] => []
  | c :: rest =>
      if c = cr ∧ rest.head? = some lf then normalize cr lf rest else c :: normalize cr lf rest

/-- Equal normal forms, up to one `lf` at the end of one of them. -/
def agree (cr lf : α) (a e : List α) : Bool :=
  normalize cr lf a == normalize cr lf e || normalize cr lf a == normalize cr lf e ++ [lf] ||
    normalize cr lf a ++ [lf] == normalize cr lf e

/-- The second text is the first with every `cr lf` replaced by `lf`: the pieces
    between the matches stay. -/
def Replaces (cr lf : α) (a b : List α) : Prop :=
  ∃ pieces : List (List α), (∀ p ∈ pieces, ¬ [cr, lf] <:+: p) ∧
    a = [cr, lf].intercalate pieces ∧ b = [lf].intercalate pieces

/-- One `lf` that ends a line by itself becomes `cr lf`. -/
inductive Restyle (cr lf : α) : List α → List α → Prop
  | mk (u v : List α) (alone : u.getLast? ≠ some cr) :
      Restyle cr lf (u ++ lf :: v) (u ++ cr :: lf :: v)

/-- Texts that differ in the style of their line endings. -/
def Restyled (cr lf : α) : List α → List α → Prop :=
  Relation.EqvGen (Restyle cr lf)

/-- What a comparison of lines accepts, and what it does not. -/
structure Law (cr lf : α) (accepts : List α → List α → Bool) : Prop where
  /-- Equal after replacing, once an `lf` is possibly added to one of the two. -/
  accepts_iff : ∀ a e, accepts a e = true ↔ ∃ a' e', Replaces cr lf a a' ∧ Replaces cr lf e e' ∧
    (a' = e' ∨ a' = e' ++ [lf] ∨ a' ++ [lf] = e')
  symmetric : ∀ a e, accepts a e = accepts e a
  reflexive : ∀ a, accepts a a = true
  /-- The style of the line endings makes no difference. -/
  restyled : ∀ a a' e e', Restyled cr lf a a' → Restyled cr lf e e' → accepts a e = accepts a' e'
  /-- Nothing else but one line ending at the end does. -/
  only : ∀ a e, accepts a e = true ↔ Restyled cr lf a e ∨ Restyled cr lf a (e ++ [cr, lf]) ∨
    Restyled cr lf (a ++ [cr, lf]) e
  /-- A character too many, be it a space at the end or a `cr` that ends no line. -/
  inserted : ∀ u v c, c ≠ lf → (c = cr → v.head? ≠ some lf) →
    accepts (u ++ c :: v) (u ++ v) = false
  /-- Another character. -/
  changed : ∀ u v c d, c ≠ d → c ≠ cr → c ≠ lf → d ≠ cr → d ≠ lf →
    accepts (u ++ c :: v) (u ++ d :: v) = false
  /-- An empty line before the end. -/
  blank : ∀ u v c, c ∈ v → c ≠ cr → c ≠ lf → accepts (u ++ lf :: v) (u ++ v) = false
  /-- Two line endings too many. -/
  twice : ∀ a e, e.count lf + 1 < a.count lf → accepts a e = false

/-! ### The pass -/

theorem normalize_drop (hne : cr ≠ lf) (rest : List α) :
    normalize cr lf (cr :: lf :: rest) = lf :: normalize cr lf rest := by
  rw [normalize, if_pos ⟨rfl, rfl⟩, normalize, if_neg fun h => hne h.1.symm]

theorem normalize_keep {rest : List α} (h : c = cr → rest.head? ≠ some lf) :
    normalize cr lf (c :: rest) = c :: normalize cr lf rest := by
  rw [normalize, if_neg fun hdrop => h hdrop.1 hdrop.2]

/-- The pass splits, except between the two halves of a match. -/
theorem normalize_append (h : u.getLast? = some cr → v.head? ≠ some lf) :
    normalize cr lf (u ++ v) = normalize cr lf u ++ normalize cr lf v := by
  induction u with
  | nil => rfl
  | cons c u ih =>
      rw [List.cons_append]
      cases u with
      | nil =>
          have hkeep : c = cr → v.head? ≠ some lf := fun hc => h (by rw [hc]; rfl)
          have halone : normalize cr lf [c] = [c] := normalize_keep fun _ h => by cases h
          rw [List.nil_append, normalize_keep hkeep, halone]
          rfl
      | cons d u =>
          have hrest := ih fun hlast => h (by rwa [List.getLast?_cons_cons])
          have hhead : (d :: u ++ v).head? = (d :: u).head? := rfl
          rw [normalize, normalize, hhead, hrest]
          split <;> rfl

/-- The first symbol of a normal form, and what it comes from. -/
theorem normalize_eq_cons (hne : cr ≠ lf) (h : normalize cr lf a = c :: n) :
    (∃ rest, a = c :: rest ∧ (c = cr → rest.head? ≠ some lf) ∧ normalize cr lf rest = n) ∨
      (c = lf ∧ ∃ rest, a = cr :: lf :: rest ∧ normalize cr lf rest = n) := by
  cases a with
  | nil => cases h
  | cons d rest =>
      by_cases hdrop : d = cr ∧ rest.head? = some lf
      · obtain ⟨rfl, hhead⟩ := hdrop
        obtain ⟨rest, rfl⟩ := List.head?_eq_some_iff.1 hhead
        rw [normalize_drop hne] at h
        obtain ⟨rfl, rfl⟩ := List.cons.inj h
        exact .inr ⟨rfl, rest, rfl, rfl⟩
      · have hkeep : d = cr → rest.head? ≠ some lf := fun hd hhead => hdrop ⟨hd, hhead⟩
        rw [normalize_keep hkeep] at h
        obtain ⟨rfl, rfl⟩ := List.cons.inj h
        exact .inl ⟨rest, rfl, hkeep, rfl⟩

theorem normalize_eq_nil (hne : cr ≠ lf) (h : normalize cr lf a = []) : a = [] := by
  cases a with
  | nil => rfl
  | cons d rest =>
      rw [normalize] at h
      split at h
      · next hdrop =>
          obtain ⟨rest, rfl⟩ := List.head?_eq_some_iff.1 hdrop.2
          rw [normalize_keep fun hlf => absurd hlf.symm hne] at h
          cases h
      · cases h

/-- A line ending written in full after any text. -/
theorem normalize_crlf (hne : cr ≠ lf) (u v : List α) :
    normalize cr lf (u ++ cr :: lf :: v) = normalize cr lf u ++ lf :: normalize cr lf v := by
  have hsplit : u.getLast? = some cr → (cr :: lf :: v).head? ≠ some lf :=
    fun _ h => hne (Option.some.inj h)
  rw [normalize_append hsplit, normalize_drop hne]

theorem normalize_lf (hne : cr ≠ lf) (v : List α) (h : u.getLast? ≠ some cr) :
    normalize cr lf (u ++ lf :: v) = normalize cr lf u ++ lf :: normalize cr lf v := by
  rw [normalize_append fun hlast => absurd hlast h,
    normalize_keep fun hlf => absurd hlf.symm hne]

/-- Any other symbol, and a `cr` that ends no line. -/
theorem normalize_other (u : List α) (hlf : c ≠ lf) (hcr : c = cr → v.head? ≠ some lf) :
    normalize cr lf (u ++ c :: v) = normalize cr lf u ++ c :: normalize cr lf v := by
  have hsplit : u.getLast? = some cr → (c :: v).head? ≠ some lf :=
    fun _ h => hlf (Option.some.inj h)
  rw [normalize_append hsplit, normalize_keep hcr]

theorem count_normalize (hne : cr ≠ lf) (a : List α) :
    (normalize cr lf a).count lf = a.count lf := by
  induction a with
  | nil => rfl
  | cons c rest ih =>
      rw [normalize]
      split
      · next hdrop => rw [ih, hdrop.1, List.count_cons_of_ne hne]
      · rw [List.count_cons, List.count_cons, ih]

theorem mem_normalize (hc : c ∈ a) (hcr : c ≠ cr) : c ∈ normalize cr lf a := by
  induction a with
  | nil => cases hc
  | cons d rest ih =>
      rw [normalize]
      rcases List.mem_cons.1 hc with rfl | hc
      · rw [if_neg fun h => hcr h.1]
        exact List.mem_cons_self
      · split
        · exact ih hc
        · exact List.mem_cons_of_mem _ (ih hc)

/-! ### Replacing -/

theorem normalize_of_free {p : List α} (h : ¬ [cr, lf] <:+: p) : normalize cr lf p = p := by
  induction p with
  | nil => rfl
  | cons c rest ih =>
      have hkeep : c = cr → rest.head? ≠ some lf := by
        rintro rfl hhead
        obtain ⟨rest, rfl⟩ := List.head?_eq_some_iff.1 hhead
        exact h ⟨[], rest, rfl⟩
      rw [normalize_keep hkeep, ih fun hrest => h (hrest.trans (List.suffix_cons c rest).isInfix)]

theorem normalize_intercalate (hne : cr ≠ lf) {pieces : List (List α)}
    (h : ∀ p ∈ pieces, ¬ [cr, lf] <:+: p) :
    normalize cr lf ([cr, lf].intercalate pieces) = [lf].intercalate pieces := by
  induction pieces with
  | nil => rfl
  | cons p rest ih =>
      have hp := normalize_of_free (h p List.mem_cons_self)
      cases rest with
      | nil =>
          rw [List.intercalate_singleton, List.intercalate_singleton, hp]
      | cons q rest =>
          have hrest := ih fun r hr => h r (List.mem_cons_of_mem _ hr)
          rw [List.intercalate_cons_cons, List.intercalate_cons_cons, ← hrest, List.append_assoc,
            List.append_assoc]
          exact (normalize_crlf hne p _).trans (by rw [hp]; rfl)

/-- Every text is cut at its matches. -/
theorem exists_pieces (cr lf : α) (a : List α) : ∃ p pieces,
    (∀ q ∈ p :: pieces, ¬ [cr, lf] <:+: q) ∧ a = [cr, lf].intercalate (p :: pieces) := by
  induction hlen : a.length using Nat.strong_induction_on generalizing a with
  | _ n ih =>
  subst hlen
  match a with
  | [] => exact ⟨[], [], by simp, rfl⟩
  | c :: rest =>
    by_cases hdrop : c = cr ∧ rest.head? = some lf
    · -- a match: an empty piece before it, and those of the text after it
      obtain ⟨rfl, hhead⟩ := hdrop
      obtain ⟨rest, rfl⟩ := List.head?_eq_some_iff.1 hhead
      have hlt : rest.length < (c :: lf :: rest).length := by
        rw [List.length_cons, List.length_cons]
        omega
      obtain ⟨p, pieces, hfree, hrest⟩ := ih rest.length hlt rest rfl
      refine ⟨[], p :: pieces, List.forall_mem_cons.2 ⟨by simp, hfree⟩, ?_⟩
      rw [List.intercalate_cons_cons, ← hrest]
      rfl
    · -- the symbol belongs to the first piece of the text after it
      obtain ⟨p, pieces, hfree, hrest⟩ := ih rest.length (by simp) rest rfl
      obtain ⟨hp, hpieces⟩ := List.forall_mem_cons.1 hfree
      refine ⟨c :: p, pieces, List.forall_mem_cons.2 ⟨?_, hpieces⟩, ?_⟩
      · intro hinfix
        rcases List.infix_cons_iff.1 hinfix with hfront | hinfix
        · obtain ⟨rfl, t, rfl⟩ := List.cons_prefix_cons.1 hfront
          refine hdrop ⟨rfl, ?_⟩
          rw [hrest]
          cases pieces <;> rfl
        · exact hp hinfix
      · rw [hrest]
        cases pieces <;> rfl

theorem replaces_iff (hne : cr ≠ lf) : Replaces cr lf a b ↔ normalize cr lf a = b := by
  constructor
  · rintro ⟨pieces, hfree, rfl, rfl⟩
    exact normalize_intercalate hne hfree
  · rintro rfl
    obtain ⟨p, pieces, hfree, rfl⟩ := exists_pieces cr lf a
    exact ⟨p :: pieces, hfree, rfl, normalize_intercalate hne hfree⟩

/-! ### Style -/

theorem Restyle.normalize_eq (hne : cr ≠ lf) (h : Restyle cr lf a b) :
    normalize cr lf a = normalize cr lf b := by
  obtain ⟨u, v, alone⟩ := h
  rw [normalize_lf hne v alone, normalize_crlf hne]

theorem Restyled.normalize_eq (hne : cr ≠ lf) (h : Restyled cr lf a b) :
    normalize cr lf a = normalize cr lf b := by
  induction h with
  | rel a b hstep => exact hstep.normalize_eq hne
  | refl a => rfl
  | symm a b _ ih => exact ih.symm
  | trans a b c _ _ hab hbc => exact hab.trans hbc

/-- Texts with the same normal form after a common front. The front must not end in
    half of a line ending, or the texts could not be restyled at their start. -/
theorem restyled_append (hne : cr ≠ lf) (ha : normalize cr lf a = n) (hb : normalize cr lf b = n)
    (hu : u.getLast? = some cr → a.head? ≠ some lf ∧ b.head? ≠ some lf) :
    Restyled cr lf (u ++ a) (u ++ b) := by
  induction n generalizing u a b with
  | nil =>
      rw [normalize_eq_nil hne ha, normalize_eq_nil hne hb]
      exact .refl _
  | cons c n ih =>
      have hlf : (u ++ [lf]).getLast? ≠ some cr := by
        rw [List.getLast?_concat]
        exact fun h => hne (Option.some.inj h).symm
      have hends : ∀ {a b : List α}, normalize cr lf a = n → normalize cr lf b = n →
          Restyled cr lf (u ++ lf :: a) (u ++ lf :: b) := fun ha hb => by
        have := ih (u := u ++ [lf]) ha hb fun h => absurd h hlf
        rwa [List.append_assoc, List.append_assoc] at this
      rcases normalize_eq_cons hne ha with ⟨a, rfl, hkeepa, ha'⟩ | ⟨rfl, a, rfl, ha'⟩ <;>
        rcases normalize_eq_cons hne hb with ⟨b, rfl, hkeepb, hb'⟩ | ⟨hc, b, rfl, hb'⟩
      · have hrest := ih (u := u ++ [c]) ha' hb' fun h => by
          rw [List.getLast?_concat] at h
          exact ⟨hkeepa (Option.some.inj h), hkeepb (Option.some.inj h)⟩
        rwa [List.append_assoc, List.append_assoc] at hrest
      · subst hc
        have halone : u.getLast? ≠ some cr := fun h => (hu h).1 rfl
        exact .trans _ _ _ (hends ha' hb') (.rel _ _ (.mk u b halone))
      · have halone : u.getLast? ≠ some cr := fun h => (hu h).2 rfl
        exact .trans _ _ _ (.symm _ _ (.rel _ _ (.mk u a halone))) (hends ha' hb')
      · have hlast : (u ++ [cr, c]).getLast? ≠ some cr := by
          rw [List.getLast?_append]
          exact fun h => hne (Option.some.inj h).symm
        have hrest := ih (u := u ++ [cr, c]) ha' hb' fun h => absurd h hlast
        rwa [List.append_assoc, List.append_assoc] at hrest

theorem normalize_eq_iff (hne : cr ≠ lf) :
    normalize cr lf a = normalize cr lf b ↔ Restyled cr lf a b := by
  refine ⟨fun h => ?_, fun h => h.normalize_eq hne⟩
  refine restyled_append (u := []) hne h rfl fun hu => ?_
  cases hu

/-! ### The comparison -/

theorem agree_iff : agree cr lf a e = true ↔
    normalize cr lf a = normalize cr lf e ∨ normalize cr lf a = normalize cr lf e ++ [lf] ∨
      normalize cr lf a ++ [lf] = normalize cr lf e := by
  rw [agree, Bool.or_eq_true, Bool.or_eq_true, beq_iff_eq, beq_iff_eq, beq_iff_eq, or_assoc]

/-- The normal forms of texts that agree have the same symbols besides `lf`. -/
theorem ink_of_agree (h : agree cr lf a e = true) :
    (normalize cr lf a).filter (· ≠ lf) = (normalize cr lf e).filter (· ≠ lf) := by
  rcases agree_iff.1 h with h | h | h
  · rw [h]
  · rw [h, List.filter_append]
    simp
  · rw [← h, List.filter_append]
    simp

/-- Texts with as many symbols in their normal forms agree only if those are equal. -/
theorem agree_of_length_eq (hlen : (normalize cr lf a).length = (normalize cr lf e).length)
    (h : agree cr lf a e = true) : normalize cr lf a = normalize cr lf e := by
  rcases agree_iff.1 h with h | h | h
  · exact h
  · rw [h, List.length_append] at hlen
    simp at hlen
  · rw [← h, List.length_append] at hlen
    simp at hlen

theorem agree_symm (a e : List α) : agree cr lf a e = agree cr lf e a := by
  rw [Bool.eq_iff_iff, agree_iff, agree_iff]
  constructor <;> rintro (h | h | h)
  · exact .inl h.symm
  · exact .inr (.inr h.symm)
  · exact .inr (.inl h.symm)
  · exact .inl h.symm
  · exact .inr (.inr h.symm)
  · exact .inr (.inl h.symm)

theorem agree_only (hne : cr ≠ lf) (a e : List α) : agree cr lf a e = true ↔
    Restyled cr lf a e ∨ Restyled cr lf a (e ++ [cr, lf]) ∨ Restyled cr lf (a ++ [cr, lf]) e := by
  rw [agree_iff, ← normalize_eq_iff hne, ← normalize_eq_iff hne, ← normalize_eq_iff hne,
    normalize_crlf hne, normalize_crlf hne]
  rfl

theorem agree_inserted (hne : cr ≠ lf) (u v : List α) (c : α) (hlf : c ≠ lf)
    (hcr : c = cr → v.head? ≠ some lf) : agree cr lf (u ++ c :: v) (u ++ v) = false := by
  rw [Bool.eq_false_iff]
  intro h
  have hink := congrArg List.length (ink_of_agree h)
  rw [normalize_other u hlf hcr] at hink
  by_cases hsplit : u.getLast? = some cr ∧ v.head? = some lf
  · -- the symbol stands inside a match, whose `cr` it keeps from being dropped
    obtain ⟨x, rfl⟩ := List.getLast?_eq_some_iff.1 hsplit.1
    obtain ⟨v, rfl⟩ := List.head?_eq_some_iff.1 hsplit.2
    have hx : normalize cr lf (x ++ [cr]) = normalize cr lf x ++ [cr] :=
      normalize_other x hne fun _ hhead => by cases hhead
    have hv : normalize cr lf (lf :: v) = lf :: normalize cr lf v :=
      normalize_keep fun hlf => absurd hlf.symm hne
    rw [List.append_assoc, List.singleton_append, normalize_crlf hne, hx, hv] at hink
    simp [hne, hlf] at hink
    omega
  · rw [normalize_append fun hlast hhead => hsplit ⟨hlast, hhead⟩] at hink
    simp [hlf] at hink

theorem agree_changed (u v : List α) (c d : α) (hcd : c ≠ d) (hccr : c ≠ cr) (hclf : c ≠ lf)
    (hdcr : d ≠ cr) (hdlf : d ≠ lf) : agree cr lf (u ++ c :: v) (u ++ d :: v) = false := by
  rw [Bool.eq_false_iff]
  intro h
  have hc : normalize cr lf (u ++ c :: v) = normalize cr lf u ++ c :: normalize cr lf v :=
    normalize_other u hclf fun h => absurd h hccr
  have hd : normalize cr lf (u ++ d :: v) = normalize cr lf u ++ d :: normalize cr lf v :=
    normalize_other u hdlf fun h => absurd h hdcr
  have heq := agree_of_length_eq (by rw [hc, hd]; simp) h
  rw [hc, hd, List.append_cancel_left_eq] at heq
  exact hcd (List.cons.inj heq).1

omit [DecidableEq α] in
/-- A list that `lf` can be moved through consists of nothing else. -/
theorem eq_of_cons_eq_concat {l : List α} (h : lf :: l = l ++ [lf]) (hc : c ∈ l) : c = lf := by
  induction l with
  | nil => cases hc
  | cons d l ih =>
      obtain ⟨rfl, hl⟩ := List.cons.inj h
      rcases List.mem_cons.1 hc with rfl | hc
      · rfl
      · exact ih hl hc

/-- An empty line in front of other symbols makes a difference. -/
theorem agree_insert_lf (hc : c ∈ n) (hlf : c ≠ lf) (ha : normalize cr lf a = u ++ lf :: n)
    (he : normalize cr lf e = u ++ n) : agree cr lf a e = false := by
  rw [Bool.eq_false_iff]
  intro h
  rcases agree_iff.1 h with h | h | h <;> rw [ha, he] at h
  · simpa using congrArg List.length h
  · rw [List.append_assoc, List.append_cancel_left_eq] at h
    exact hlf (eq_of_cons_eq_concat h hc)
  · have := congrArg List.length h
    simp at this
    omega

theorem agree_blank (hne : cr ≠ lf) (u v : List α) (c : α) (hc : c ∈ v) (hcr : c ≠ cr)
    (hlf : c ≠ lf) : agree cr lf (u ++ lf :: v) (u ++ v) = false := by
  have hmem : c ∈ normalize cr lf v := mem_normalize hc hcr
  by_cases hlast : u.getLast? = some cr
  · obtain ⟨x, rfl⟩ := List.getLast?_eq_some_iff.1 hlast
    have ha : normalize cr lf (x ++ [cr] ++ lf :: v)
        = normalize cr lf x ++ lf :: normalize cr lf v := by
      rw [List.append_assoc]
      exact normalize_crlf hne x v
    by_cases hhead : v.head? = some lf
    · -- the `cr` ends a line with either of the two `lf`
      obtain ⟨v, rfl⟩ := List.head?_eq_some_iff.1 hhead
      refine agree_insert_lf hmem hlf ha ?_
      rw [List.append_assoc, normalize_keep fun h => absurd h.symm hne]
      exact normalize_crlf hne x v
    · -- the `cr` ended no line before
      have he : normalize cr lf (x ++ [cr] ++ v)
          = normalize cr lf x ++ cr :: normalize cr lf v := by
        rw [List.append_assoc]
        exact normalize_other x hne fun _ => hhead
      rw [Bool.eq_false_iff]
      intro h
      have heq := agree_of_length_eq (by rw [ha, he]; simp) h
      rw [ha, he, List.append_cancel_left_eq] at heq
      exact hne (List.cons.inj heq).1.symm
  · exact agree_insert_lf hmem hlf (normalize_lf hne v hlast)
      (normalize_append fun h => absurd h hlast)

theorem agree_twice (hne : cr ≠ lf) (a e : List α) (h : e.count lf + 1 < a.count lf) :
    agree cr lf a e = false := by
  rw [Bool.eq_false_iff]
  intro hagree
  rw [← count_normalize hne a, ← count_normalize hne e] at h
  rcases agree_iff.1 hagree with heq | heq | heq
  · rw [heq] at h
    omega
  · rw [heq, List.count_append, List.count_singleton_self] at h
    omega
  · rw [← heq, List.count_append, List.count_singleton_self] at h
    omega

/-- The comparison follows the law. -/
theorem agree_law (hne : cr ≠ lf) : Law cr lf (agree cr lf) where
  accepts_iff a e := by
    rw [agree_iff]
    constructor
    · exact fun h => ⟨_, _, (replaces_iff hne).2 rfl, (replaces_iff hne).2 rfl, h⟩
    · rintro ⟨a', e', ha, he, h⟩
      rwa [← (replaces_iff hne).1 ha, ← (replaces_iff hne).1 he] at h
  symmetric := agree_symm
  reflexive a := agree_iff.2 (.inl rfl)
  restyled a a' e e' ha he := by
    rw [agree, agree, ha.normalize_eq hne, he.normalize_eq hne]
  only := agree_only hne
  inserted := agree_inserted hne
  changed := agree_changed
  blank := agree_blank hne
  twice := agree_twice hne

end Newlines
