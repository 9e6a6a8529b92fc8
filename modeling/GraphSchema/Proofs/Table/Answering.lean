import Mathlib
import GraphSchema.Checker.Table
import GraphSchema.Proofs.Resolution.Simulation

/-!
# A table answers as its rows say

The checker of a table has no world to change, so it models the answers that can be read off the
rows: `Table.models`.  With it a resolution over a table comes to its value over these answers.
-/

namespace GraphSchema.Table

variable {n : Nat} (table : Table n)

/-- The answers of a table. -/
def answers : Answers (Fin n) (Symbol n) (Site n)
  | .flags ty => (table ty).flags
  | .intrinsic ty => (table ty).intrinsic
  | .symbol ty => (table ty).symbol.map fun _ => .type ty
  | .symbolName (.type ty) => (table ty).symbol.getD ""
  | .symbolName (.property name _) => name
  | .memberNames (.type ty) => (table ty).members
  | .memberNames (.property ..) => none
  | .properties ty => (table ty).properties.map fun entry => .property entry.1 entry.2
  | .target ty => (table ty).target
  | .arguments ty => (table ty).arguments
  | .bases ty => (table ty).bases
  | .memberType (.type ty) _ => ty
  | .memberType (.property _ ty) _ => ty
  | .siteType node => node.type
  | .siteName node => node.name

theorem reply_eq (question : Question (Fin n) (Symbol n) (Site n)) :
    table.checker.reply question () = .ok { answer := table.answers question, world := () } := by
  cases question with
  | symbolName symbol => cases symbol <;> rfl
  | memberNames symbol => cases symbol <;> rfl
  | memberType symbol node => cases symbol <;> rfl
  | _ => rfl

theorem replies {question : Question (Fin n) (Symbol n) (Site n)}
    {related : Unit → question.Answer → Prop} (h : related () (table.answers question)) :
    table.checker.Replies (fun _ => True) (fun _ _ => True) () question related :=
  ⟨_, table.reply_eq question, trivial, trivial, h⟩

theorem forall₂_eq {α : Type} (items : List α) : List.Forall₂ Eq items items :=
  List.forall₂_eq_eq_eq ▸ rfl

theorem rel_eq {α : Type} (item : Option α) : Option.Rel Eq item item := by
  cases item with
  | none => exact .none
  | some item => exact .some rfl

/-- The checker of a table models the answers of the table. -/
def models : Models table.checker table.answers where
  Sound _ := True
  Later _ _ := True
  type _ := Eq
  symbol _ := Eq
  site := Eq
  later_refl _ := trivial
  later_trans _ _ := trivial
  type_later _ h := h
  symbol_later _ h := h
  type_unique := by
    rintro _ _ _ _ _ _ rfl rfl
    rfl
  flags := by
    rintro _ _ _ _ rfl
    exact table.replies rfl
  intrinsic := by
    rintro _ _ _ _ rfl
    exact table.replies rfl
  symbolOf := by
    rintro _ _ _ _ rfl
    exact table.replies (rel_eq _)
  symbolName := by
    rintro _ _ _ _ rfl
    exact table.replies rfl
  memberNames := by
    rintro _ _ _ _ rfl
    exact table.replies rfl
  properties := by
    rintro _ _ _ _ rfl
    exact table.replies (forall₂_eq _)
  target := by
    rintro _ _ _ _ rfl
    exact table.replies (rel_eq _)
  arguments := by
    rintro _ ty _ _ rfl
    refine table.replies ?_
    cases table.answers (.arguments ty) with
    | none => exact .none
    | some list => exact .some (forall₂_eq list)
  bases := by
    rintro _ ty _ _ rfl
    refine table.replies ?_
    cases table.answers (.bases ty) with
    | none => exact .none
    | some list => exact .some (forall₂_eq list)
  memberType := by
    rintro _ _ _ _ _ _ rfl rfl
    exact table.replies rfl
  siteType := by
    rintro _ _ _ _ rfl
    exact table.replies rfl
  siteName := by
    rintro _ _ _ _ rfl
    exact table.replies rfl

end GraphSchema.Table
