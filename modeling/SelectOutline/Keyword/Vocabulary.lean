/-
SelectOutline.Keyword.Vocabulary — the keywords of a query.

The two words that open a query may stand at its very start and only
ask for a blank after them. All others stand between blanks.
-/
import SelectOutline.Keyword

namespace SelectOutline

/-! ## 1. Opening words -/

/-- The keyword `SELECT`. -/
def kwSelect : Keyword :=
  { Keyword.ofText "SELECT".toList with blankAfter := true }

/-- The keyword `DISTINCT`. -/
def kwDistinct : Keyword :=
  { Keyword.ofText "DISTINCT".toList with blankAfter := true }

/-! ## 2. Clause words -/

/-- The keyword `FROM`. -/
def kwFrom : Keyword := Keyword.bounded "FROM".toList

/-- The keyword `INNER JOIN`. -/
def kwInnerJoin : Keyword := Keyword.bounded "INNER JOIN".toList

/-- The keyword `LEFT JOIN`. -/
def kwLeftJoin : Keyword := Keyword.bounded "LEFT JOIN".toList

/-- The keyword `RIGHT JOIN`. -/
def kwRightJoin : Keyword := Keyword.bounded "RIGHT JOIN".toList

/-- The keyword `ON`. -/
def kwOn : Keyword := Keyword.bounded "ON".toList

/-- The keyword `WHERE`. -/
def kwWhere : Keyword := Keyword.bounded "WHERE".toList

/-- The keyword `GROUP BY`. -/
def kwGroupBy : Keyword := Keyword.bounded "GROUP BY".toList

/-- The keyword `ORDER BY`. -/
def kwOrderBy : Keyword := Keyword.bounded "ORDER BY".toList

/-- The keyword `LIMIT`. -/
def kwLimit : Keyword := Keyword.bounded "LIMIT".toList

/-! ## 3. Words inside conditions -/

/-- The keyword `AND`. -/
def kwAnd : Keyword := Keyword.bounded "AND".toList

/-- The keyword `OR`. -/
def kwOr : Keyword := Keyword.bounded "OR".toList

/-- The keyword `LIKE`. -/
def kwLike : Keyword := Keyword.bounded "LIKE".toList

/-! ## 4. Alternatives that are searched together -/

/-- The three kinds of join. -/
def kwJoins : List Keyword := [kwInnerJoin, kwLeftJoin, kwRightJoin]

/-- The two connectives. -/
def kwConnectives : List Keyword := [kwAnd, kwOr]

end SelectOutline
