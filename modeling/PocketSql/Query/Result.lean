import PocketSql.Sql.Error
import PocketSql.Store.Error
import PocketSql.Store.Row

/-!
# Results of queries
-/

namespace PocketSql

/-- The answer to a query. Rows are counted also where they are affected and not shown. -/
structure QueryResult where
  success : Bool
  rows : Option (List Row)
  rowCount : Option Nat
  message : Option String
  error : Option String
  errorKind : Option ErrorKind
  deriving DecidableEq, Repr

namespace QueryResult

def ofRows (rows : List Row) : QueryResult := ⟨true, some rows, some rows.length, none, none, none⟩

def ofMessage (message : String) : QueryResult := ⟨true, none, none, some message, none, none⟩

/-- The answer to a query that affected rows. -/
def ofAffected (count : Nat) (message : String) : QueryResult :=
  ⟨true, none, some count, some message, none, none⟩

def ofStoreError (e : Store.Error) : QueryResult :=
  ⟨false, none, none, none, some e.message, some e.kind⟩

def ofGrammarError (e : Sql.Error) : QueryResult :=
  ⟨false, none, none, none, some e.message, some .grammar⟩

end QueryResult
end PocketSql
