import Mathlib
import GraphSchema.Proofs.Table.Answering

/-!
# Resolutions one after the other

Over a table nothing lasts from one resolution to the next but what the resolver itself keeps: the
types in progress and the nesting depth.  Both are put back at the end of every step, so sites that
are resolved one after the other by one resolver have the schemas that each has by itself
(`Table.restores_and_mapM_eq`).  This holds of any recognizers, since every inquiry asks the same
questions in two runs that give it the same answers (`Table.similar_self`).
-/

namespace GraphSchema.Table

variable {n : Nat} {α : Type} (table : Table n)

/-- An inquiry that is carried out comes to its own value. -/
theorem similar_self (inquiry : Inquiry (Fin n) (Symbol n) (Site n) α) :
    table.models.Similar () (fun _ => Eq) inquiry inquiry := by
  intro depth nested nestedValue hnested
  induction inquiry with
  | done result => exact .pure fun _ _ _ => rfl
  | ask question next ih =>
    have hask : table.models.Follows () depth (fun _ => Eq)
        (Resolution.ask table.checker question) fun _ => some (table.answers question) :=
      Models.follows_ask fun _ _ _ => table.replies rfl
    refine hask.bind (g := fun answer => (next answer).value table.answers nestedValue) ?_
    rintro _ answer _ - rfl
    exact ih answer
  | resolve ty next ih =>
    refine (hnested () ty ty trivial rfl).bind
      (g := fun schema => (next schema).value table.answers nestedValue) ?_
    rintro _ schema _ - rfl
    exact ih schema
  | guarded ty body next ihbody ih =>
    have hguarded := ihbody.guarded (show table.models.type () ty ty from rfl)
    refine hguarded.bind (g := fun claimed => (next claimed).value table.answers nestedValue) ?_
    rintro _ claimed _ - rfl
    exact ih claimed
  | exhausted => exact Models.follows_exhausted

theorem askAlike_self (registry : Registry (Fin n) (Symbol n) (Site n)) :
    List.Forall₂ table.models.AskAlike registry registry := by
  refine List.forall₂_same.mpr fun recognizer _ => ?_
  rintro steps options location _ _ ty _ rfl rfl
  exact table.similar_self _

/-- Whatever is in progress, a resolution of a type and a step with a type marked as in progress
leave the types in progress and the depth as they found them where they end, and sites that are
resolved one after the other have the schemas that each has by itself. -/
theorem restores_and_mapM_eq (registry : Registry (Fin n) (Symbol n) (Site n)) (options : Options)
    (fuel : Nat) :
    (∀ location ty title,
      (Resolver.resolveType ⟨table.checker, registry, options⟩ fuel location ty title).Restores) ∧
    (∀ location ty (body : Inquiry (Fin n) (Symbol n) (Site n) (Option Schema)),
      (Resolution.guarded table.checker ty (body.carryOut table.checker fun ty =>
        Resolver.resolveType ⟨table.checker, registry, options⟩ fuel location ty none)).Restores) ∧
    ∀ nodes : List (Site n),
      (nodes.mapM (Resolver.resolveNode ⟨table.checker, registry, options⟩ fuel)).run' (.fresh ()) =
        nodes.mapM fun node =>
          Resolver.outcome ⟨table.checker, registry, options⟩ fuel node () := by
  have hresolve : ∀ location ty title,
      (Resolver.resolveType ⟨table.checker, registry, options⟩ fuel location ty title).Restores :=
    Resolver.restores_resolveType fuel
  refine ⟨hresolve, fun location ty body => ?_, fun nodes => ?_⟩
  · apply Resolution.restores_guarded
    exact Resolution.restores_carryOut (fun part => hresolve location part none) body
  · exact Models.mapM_resolveNode_eq (M := table.models) (table.askAlike_self registry) trivial fuel
      fun node _ => ⟨node, rfl⟩

/-- `Node` has a next `Node`. -/
def chained : Table 1
  | 0 =>
    { flags := { object := true, interface := true }, symbol := some "Node",
      properties := [("next", 0)] }

theorem outcome_chained (name : Option String) :
    (Resolver.shipped chained.checker {}).outcome 2 ⟨0, name⟩ () =
      .ok (.object (some "Node") [("next", .reference "#Node")] ["next"]) := by
  rw [Resolver.shipped, Models.outcome_eq (M := chained.models) Models.askAlike_shipped rfl trivial]
  rfl

/-- The `Node` in progress is met again and stays in progress, and the site that is resolved second
has the schema of the first. -/
theorem restores_and_mapM_eq_chained :
    (∃ after, (Resolver.shipped chained.checker {}).resolveType 1 ⟨0, none⟩ 0 none
        { world := (), active := [0], depth := 1 } = .ok (.reference "#Node", after) ∧
      after.active = [0] ∧ after.depth = 1) ∧
    ([⟨0, none⟩, ⟨0, some "again"⟩].mapM
        ((Resolver.shipped chained.checker {}).resolveNode 2)).run' (.fresh ()) =
      .ok (List.replicate 2 (.object (some "Node") [("next", .reference "#Node")] ["next"])) := by
  have hagain : (Resolver.shipped chained.checker {}).resolveType 1 ⟨0, none⟩ 0 none
      { world := (), active := [0], depth := 1 } = .ok (.reference "#Node",
        { world := (), active := [0], depth := 1, log := [.recursion 0 (some "Node")] }) := rfl
  have hone := (chained.restores_and_mapM_eq Registry.shipped {} 1).1
  have htwo := (chained.restores_and_mapM_eq Registry.shipped {} 2).2.2
  refine ⟨⟨_, hagain, hone _ _ _ _ _ _ hagain⟩, ?_⟩
  rw [Resolver.shipped, htwo, List.mapM_cons, List.mapM_cons, List.mapM_nil, ← Resolver.shipped,
    outcome_chained, outcome_chained]
  rfl

end GraphSchema.Table
