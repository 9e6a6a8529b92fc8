import Mathlib
import GraphSchema.Proofs.Resolution.Reach

/-!
# Resolutions among finitely many types

`Answers.Closed` holds of a set of types that no resolution leaves: it has the items of its arrays,
the definitions of its instantiations, and the base types and members of those of its types that
make a record of their own.  Where the set is finite, a resolution of any of its types comes to an
end, in every mode and at every nesting limit (`Answers.isSome_resolveValue_of_closed`).  Every
call marks one more type of the set as in progress before it goes on, so a bound on the nesting of
calls that exceeds the number of those that are not marked yet is enough.
-/

namespace GraphSchema.Answers

open Inquiry (value_within)

variable {τ σ ν : Type}

/-- A set of types that no resolution leaves. -/
structure Closed (answers : Answers τ σ ν) (options : Options) (location : ν) (types : Set τ)
    [DecidableEq τ] : Prop where
  item : ∀ {ty item}, ty ∈ types → answers.container? ty = some .array →
    answers.item? ty = some item → item ∈ types
  target : ∀ {ty target}, ty ∈ types → answers.redirect? options ty = some target →
    target ∈ types
  base : ∀ {ty base}, ty ∈ types → OwnRecord answers options [] ty →
    base ∈ answers.baseTypes ty → base ∈ types
  member : ∀ {ty member}, ty ∈ types → OwnRecord answers options [] ty →
    member ∈ (answers.members location ty).map Prod.snd → member ∈ types

variable [DecidableEq τ] {answers : Answers τ σ ν} {options : Options} {location : ν}
  {nested : List τ → τ → Option Schema} {types : Finset τ} {active : List τ} {steps fuel : Nat}
  {ty : τ}

theorem OwnRecord.mono {more : List τ} (h : OwnRecord answers options more ty)
    (hsubset : active ⊆ more) : OwnRecord answers options active ty where
  object := h.object
  container := h.container
  tuple := h.tuple
  redirect target htarget :=
    ⟨fun hmem => (h.redirect target htarget).1 (hsubset hmem), (h.redirect target htarget).2⟩

/-- A call for a record ends where the calls do that it makes itself. -/
theorem isSome_recognizeObject_succ
    (hitem : ∀ item, answers.container? ty = some .array → answers.item? ty = some item →
      (nested active item).isSome)
    (htarget : ∀ target, answers.redirect? options ty = some target →
      ((Inquiry.within target (recognizeObject steps ⟨options, location⟩ target)).value answers
        nested active).isSome)
    (hbase : OwnRecord answers options [] ty → ∀ base ∈ answers.baseTypes ty,
      ((Inquiry.within base (recognizeObject steps ⟨options, location⟩ base)).value answers
        nested active).isSome)
    (hmember : OwnRecord answers options [] ty →
      ∀ member ∈ (answers.members location ty).map Prod.snd, (nested active member).isSome) :
    ((recognizeObject (steps + 1) ⟨options, location⟩ ty).value answers nested active).isSome := by
  rw [value_recognizeObject]
  by_cases hobject : (answers (.flags ty)).object
  · rw [if_pos hobject]
    cases hcontainer : answers.container? ty with
    | some container =>
      rw [Option.elim_some, Option.isSome_map, isSome_containerSchema_iff]
      intro item hmem
      split at hmem
      · rename_i harray
        exact hitem item (harray ▸ hcontainer) (Option.mem_toList.mp hmem)
      · cases hmem
    | none =>
      rw [Option.elim_none]
      by_cases htuple : (answers (.flags ty)).tuple
      · rw [if_pos htuple]
        rfl
      rw [if_neg htuple]
      -- Whether there is no definition or it comes to nothing, the type makes its own record.
      have hrecord : (∀ target, answers.redirect? options ty = some target →
          (Inquiry.within target (recognizeObject steps ⟨options, location⟩ target)).value answers
            nested active = some none) →
          (answers.recordSchema location (fun base =>
            (Inquiry.within base (recognizeObject steps ⟨options, location⟩ base)).value answers
              nested active) (nested active) ty).isSome := by
        intro hredirect
        have hown : OwnRecord answers options [] ty :=
          (OwnRecord.of_redirect hobject hcontainer (Bool.eq_false_iff.mpr htuple)
            hredirect).mono (List.nil_subset active)
        exact isSome_recordSchema_iff.mpr ⟨hbase hown, hmember hown⟩
      cases hredirect : answers.redirect? options ty with
      | none =>
        rw [Option.elim_none, Option.bind_some, Option.elim_none, Option.isSome_map]
        refine hrecord fun target h => ?_
        rw [hredirect] at h
        cases h
      | some target =>
        rw [Option.elim_some]
        obtain ⟨redirected, hvalue⟩ := Option.isSome_iff_exists.mp (htarget target hredirect)
        rw [hvalue, Option.bind_some]
        cases redirected with
        | some schema => rfl
        | none =>
          rw [Option.elim_none, Option.isSome_map]
          refine hrecord fun other h => ?_
          rw [hredirect] at h
          cases h
          exact hvalue
  · rw [if_neg hobject]
    rfl

/-- A call has steps enough where they exceed the number of types that are left to enter. -/
theorem isSome_recognizeObject_of_closed (hclosed : Closed answers options location (types : Set τ))
    (hty : ty ∈ types)
    (hnested : ∀ more part, active ⊆ more → part ∈ types → (nested more part).isSome)
    (hroom : room types active < steps) :
    ((recognizeObject steps ⟨options, location⟩ ty).value answers nested active).isSome := by
  induction steps generalizing active ty with
  | zero => cases hroom
  | succ steps ih =>
    have hwithin : ∀ parent ∈ types,
        ((Inquiry.within parent (recognizeObject steps ⟨options, location⟩ parent)).value answers
          nested active).isSome := by
      intro parent hparent
      rw [value_within]
      split
      · rfl
      · rename_i hnew
        have hlt := room_cons_lt hparent hnew
        refine ih hparent (fun more part hmore => ?_) (by omega)
        exact hnested more part (List.Subset.trans (List.subset_cons_self _ _) hmore)
    have hparts := fun part => hnested active part (List.Subset.refl _)
    apply isSome_recognizeObject_succ
    · exact fun item hcontainer hitem => hparts item (hclosed.item hty hcontainer hitem)
    · exact fun target htarget => hwithin target (hclosed.target hty htarget)
    · exact fun hown base hbase => hwithin base (hclosed.base hty hown hbase)
    · exact fun hown member hmember => hparts member (hclosed.member hty hown hmember)

/-- A resolution among finitely many types comes to an end. -/
theorem isSome_resolveValue_of_closed (hclosed : Closed answers options location (types : Set τ))
    (hty : ty ∈ types) (hroom : room types active < fuel) {depth : Nat} {title : Option String} :
    (answers.resolveValue Registry.shipped options location fuel depth active ty title).isSome := by
  induction fuel generalizing depth active ty title with
  | zero => cases hroom
  | succ fuel ih =>
    rw [resolveValue]
    split
    · rfl
    split
    · rfl
    rename_i hnew
    have hlt := room_cons_lt hty hnew
    refine isSome_dispatchValue_of_recognizeObject ?_
    refine isSome_recognizeObject_of_closed hclosed hty (fun more part hmore hpart => ?_) (by omega)
    have hle : room types more ≤ room types _ := room_le hmore
    exact ih hpart (by omega)

end GraphSchema.Answers
