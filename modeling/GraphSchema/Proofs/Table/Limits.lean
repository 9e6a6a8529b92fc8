import Mathlib
import GraphSchema.Proofs.Resolution.Closure
import GraphSchema.Proofs.Resolution.Comparison
import GraphSchema.Proofs.Table.Answering

/-!
# What bounds a resolution over a table

A table has finitely many types, and nothing that a resolution asks for leads out of them.  So every
resolution comes to an end, whatever the mode and however large the nesting limit
(`Table.ends_and_nodup`): each call marks a type as in progress that was not so before, and no state
in between has more types in progress than the table has.

The nesting limit is not what ends a resolution.  It only cuts the schema
(`Table.outcome_truncate`).
-/

namespace GraphSchema.Table

variable {n : Nat} (table : Table n) (options : Options) (node : Site n)

theorem closed_univ : Answers.Closed table.answers options node
    ((Finset.univ : Finset (Fin n)) : Set (Fin n)) where
  item _ _ _ := Finset.mem_coe.mpr (Finset.mem_univ _)
  target _ _ := Finset.mem_coe.mpr (Finset.mem_univ _)
  base _ _ _ := Finset.mem_coe.mpr (Finset.mem_univ _)
  member _ _ _ := Finset.mem_coe.mpr (Finset.mem_univ _)

/-- A bound on the nesting of calls that exceeds the number of types is enough. -/
theorem exists_siteValue : ∃ schema, ∀ fuel, n < fuel →
    table.answers.siteValue Registry.shipped options fuel node = some schema := by
  have hroom : Answers.room (Finset.univ : Finset (Fin n)) [] < n + 1 := by
    refine Nat.lt_succ_of_le ((Finset.card_filter_le _ _).trans ?_)
    rw [Finset.card_univ, Fintype.card_fin]
  have hends : (table.answers.siteValue Registry.shipped options (n + 1) node).isSome :=
    Answers.isSome_resolveValue_of_closed (table.closed_univ options node) (Finset.mem_univ _) hroom
  obtain ⟨schema, hschema⟩ := Option.isSome_iff_exists.mp hends
  exact ⟨schema, fun fuel hfuel => Answers.resolveValue_mono rfl hfuel (.refl _ _) hschema⟩

theorem outcome_eq (fuel : Nat) :
    (Resolver.shipped table.checker options).outcome fuel node () =
      Outcome.ofValue (table.answers.siteValue Registry.shipped options fuel node) :=
  table.models.outcome_eq Models.askAlike_shipped rfl trivial fuel

/-- Every resolution comes to an end, and at no moment are more types in progress than there are. -/
theorem ends_and_nodup :
    (∃ schema, ∀ fuel, n < fuel →
      (Resolver.shipped table.checker options).outcome fuel node () = .ok schema) ∧
    ∀ fuel moment,
      (Resolver.shipped table.checker options).PassesNode fuel node (.fresh ()) moment →
        moment.active.Nodup ∧ moment.active.length ≤ n := by
  constructor
  · obtain ⟨schema, hschema⟩ := table.exists_siteValue options node
    refine ⟨schema, fun fuel hfuel => ?_⟩
    rw [outcome_eq, hschema fuel hfuel]
    rfl
  · intro fuel moment hmoment
    have hnodup := Resolver.nodup_of_passesNode hmoment List.nodup_nil
    refine ⟨hnodup, ?_⟩
    have hle := hnodup.length_le_card
    simpa using hle

/-- Two interfaces, each with the other as its base type and with a field of the other. -/
def knotted : Table 2
  | 0 =>
    { flags := { object := true, interface := true }, properties := [("next", 1)],
      bases := some [1] }
  | 1 =>
    { flags := { object := true, interface := true }, properties := [("back", 0)],
      bases := some [0] }

theorem outcome_knotted :
    (Resolver.shipped knotted.checker {}).outcome 3 ⟨0, none⟩ () =
      .ok (.object none [("back", .reference "#"),
        ("next", .object none [("back", .reference "#")] ["back"])] ["back", "next"]) := by
  rw [outcome_eq]
  rfl

/-- The resolution of the first interface has both in progress while it reads the second as a base
type, and that is as many as there can be. -/
theorem ends_and_nodup_knotted :
    (∀ fuel, 2 < fuel → (Resolver.shipped knotted.checker {}).outcome fuel ⟨0, none⟩ () =
      (Resolver.shipped knotted.checker {}).outcome 3 ⟨0, none⟩ ()) ∧
    ∃ moment,
      (Resolver.shipped knotted.checker {}).PassesNode 3 ⟨0, none⟩ (.fresh ()) moment ∧
        moment.active = [1, 0] ∧ moment.active.length ≤ 2 := by
  have hends := knotted.ends_and_nodup {} ⟨0, none⟩
  constructor
  · obtain ⟨schema, hschema⟩ := hends.1
    exact fun fuel hfuel => (hschema fuel hfuel).trans (hschema 3 (by decide)).symm
  · have hmoment : (Resolver.shipped knotted.checker {}).PassesNode 3 ⟨0, none⟩ (.fresh ())
        { world := (), active := [1, 0], depth := 1, log := [.started 0 none] } := by
      refine .inr ⟨0, .fresh (), rfl, .inr ⟨none, .fresh (), rfl, .inr ⟨by decide,
        List.not_mem_nil, ?_⟩⟩⟩
      apply Resolver.Tries.declined rfl
      apply Resolver.Tries.declined rfl
      apply Resolver.Tries.trying
      -- The questions are for the flags, again for them and for the symbol, then for the bases.
      apply Inquiry.Passes.answered rfl
      apply Inquiry.Passes.answered rfl
      apply Inquiry.Passes.answered rfl
      apply Inquiry.Passes.answered rfl
      apply Inquiry.Passes.entered (by decide)
      apply Inquiry.Passes.start
    exact ⟨_, hmoment, rfl, (hends.2 3 _ hmoment).2⟩

/-- A smaller nesting limit cuts the schema at the level of that limit and changes nothing above,
so no schema has a node below the level of the limit that it was made with. -/
theorem outcome_truncate {limit : Nat} (hpos : 1 ≤ limit) (hlimit : limit ≤ options.maxDepth) :
    ∃ schema,
      (∀ fuel, n < fuel →
        (Resolver.shipped table.checker options).outcome fuel node () = .ok schema ∧
        (Resolver.shipped table.checker { options with maxDepth := limit }).outcome fuel node () =
          .ok (schema.truncate limit)) ∧
      ∀ above part, (schema.truncate limit).Below above part → above.length ≤ limit := by
  obtain ⟨schema, hschema⟩ := table.exists_siteValue options node
  refine ⟨schema, fun fuel hfuel => ⟨?_, ?_⟩, fun _ _ => Schema.length_le_of_below_truncate⟩
  · rw [outcome_eq, hschema fuel hfuel]
    rfl
  · have hcut := Answers.resolveValue_truncate hlimit (Nat.zero_le limit)
      (fun hzero => absurd hpos (by omega)) (hschema fuel hfuel)
    rw [outcome_eq, Answers.siteValue, hcut]
    rfl

theorem outcome_truncate_knotted :
    (Resolver.shipped knotted.checker { maxDepth := 1 }).outcome 3 ⟨0, none⟩ () =
      .ok (.object none [("back", .any none), ("next", .any none)] ["back", "next"]) := by
  have hone : 1 ≤ ({} : Options).maxDepth := by decide
  obtain ⟨schema, hschema, -⟩ := knotted.outcome_truncate {} ⟨0, none⟩ le_rfl hone
  obtain ⟨hfull, hcut⟩ := hschema 3 (by decide)
  cases hfull.symm.trans outcome_knotted
  exact hcut

end GraphSchema.Table
