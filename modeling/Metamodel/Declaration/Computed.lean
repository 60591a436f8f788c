import Metamodel.Tag
import Metamodel.Text.Blank
import Metamodel.Text.Dotted

/-!
# Formulas of computed members

A member with a body is an expression over other properties: its formula lists them and has no
database expression. A member without a body is computed by the database: its formula has a
database expression and lists nothing.
-/

namespace Metamodel

open Text

/-- What makes a formula unfit for its member. -/
inductive FormulaFault where
  /-- A member with a body has a database expression. -/
  | sqlBesideBody
  /-- A member with a body lists no dependencies. -/
  | noDependencies
  /-- A segment of a dependency is blank. -/
  | blankSegment (dependency : String)
  /-- A dependency stands in the list a second time. -/
  | repeatedDependency (dependency : String)
  /-- A member without a body has no database expression. -/
  | noSql
  /-- A member without a body lists dependencies. -/
  | dependenciesBesideSql
  deriving DecidableEq, Repr

/-- The sentence that reports a fault. -/
def FormulaFault.message : FormulaFault → String
  | .sqlBesideBody =>
    "it has a body and is tagged Formula; a body means an expression over other properties, so " ++
      "`sql` cannot be specified"
  | .noDependencies =>
    "it has a body and is tagged Formula; a body means an expression over other properties, so " ++
      "`dependencies` must be specified"
  | .blankSegment dependency => s!"dependency \"{dependency}\" is not a valid property path"
  | .repeatedDependency dependency => s!"dependency \"{dependency}\" is listed more than once"
  | .noSql =>
    "it is abstract and tagged Formula; an abstract member means a SQL expression, so `sql` " ++
      "must be specified"
  | .dependenciesBesideSql =>
    "it is abstract and tagged Formula; an abstract member means a SQL expression, so " ++
      "`dependencies` cannot be specified"

/-- The first fault in a list of dependencies of which those in `seen` came before. -/
def dependencyFault? (seen : List String) : List String → Option FormulaFault
  | [] => none
  | dependency :: rest =>
    if (splitDots dependency).any isBlank then some (.blankSegment dependency)
    else if dependency ∈ seen then some (.repeatedDependency dependency)
    else dependencyFault? (dependency :: seen) rest

namespace Formula

/-- What makes a formula unfit for a member with a body. -/
def expressionFault? (formula : Formula) : Option FormulaFault :=
  if formula.hasSql then some .sqlBesideBody
  else if !formula.hasDependencies then some .noDependencies
  else dependencyFault? [] formula.dependencies

/-- What makes a formula unfit for a member without a body. -/
def sqlFault? (formula : Formula) : Option FormulaFault :=
  if !formula.hasSql then some .noSql
  else if formula.hasDependencies then some .dependenciesBesideSql
  else none

end Formula

end Metamodel
