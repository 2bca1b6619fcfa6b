import Mathlib.Logic.Function.Basic
import Mathlib.Tactic

namespace OrderEngine.Library

/-- A write that keeps a field of one entry keeps that field of every entry. -/
theorem update_field {Key Value Field : Type} [DecidableEq Key] (field : Value → Field)
    (table : Key → Value) {key : Key} {value : Value} (same : field value = field (table key))
    (other : Key) : field (Function.update table key value other) = field (table other) := by
  by_cases here : other = key
  · rw [here, Function.update_self, same]
  · rw [Function.update_of_ne here]

variable {Row Column Cell : Type} [DecidableEq Row] [DecidableEq Column]

/-- One cell of a grid changes. -/
def setCell (grid : Row → Column → Cell) (row : Row) (column : Column) (cell : Cell) :
    Row → Column → Cell :=
  fun otherRow otherColumn =>
    if otherRow = row ∧ otherColumn = column then cell else grid otherRow otherColumn

variable (grid : Row → Column → Cell) (row otherRow : Row) (column otherColumn : Column)
  (cell first : Cell)

theorem setCell_apply : setCell grid row column cell otherRow otherColumn =
    if otherRow = row ∧ otherColumn = column then cell else grid otherRow otherColumn := rfl

@[simp] theorem setCell_self : setCell grid row column cell row column = cell :=
  if_pos ⟨rfl, rfl⟩

variable {row otherRow column otherColumn} in
theorem setCell_of_ne (other : ¬(otherRow = row ∧ otherColumn = column)) :
    setCell grid row column cell otherRow otherColumn = grid otherRow otherColumn :=
  if_neg other

@[simp] theorem setCell_same : setCell grid row column (grid row column) = grid := by
  funext otherRow otherColumn
  rw [setCell_apply]
  split
  · next here => rw [here.1, here.2]
  · rfl

@[simp] theorem setCell_setCell :
    setCell (setCell grid row column first) row column cell = setCell grid row column cell := by
  funext otherRow otherColumn
  simp only [setCell_apply]
  split <;> rfl

/-- A grid read under other names changes in the cell of the other name. -/
theorem setCell_turned {turnRow : Row → Row} {turnColumn : Column → Column}
    (rows : Function.Involutive turnRow) (columns : Function.Involutive turnColumn) :
    (fun otherRow otherColumn => setCell grid row column cell (turnRow otherRow) (turnColumn otherColumn)) =
      setCell (fun otherRow otherColumn => grid (turnRow otherRow) (turnColumn otherColumn)) (turnRow row)
        (turnColumn column) cell := by
  funext otherRow otherColumn
  simp only [setCell_apply, rows.eq_iff, columns.eq_iff]

end OrderEngine.Library
