import PocketSql.Text.Casing

/-!
# Keywords

The words with a meaning of their own, in any letter case. Sixteen of them are reserved; the others
may also name a table or a column, and then stand for their lower case.
-/

namespace PocketSql
namespace Sql

/-- A word with a meaning of its own. -/
inductive Keyword where
  | create | drop | table | showWord | tables | describe | desc | ifWord | existsWord
  | select | insert | update | delete | into | values | set | fromWord | whereWord | andWord
  | join | inner | left | outer | on
  | primary | key | unique | notWord | null | default
  | trueWord | falseWord
  deriving DecidableEq, Repr

namespace Keyword

/-- Every keyword. -/
def all : List Keyword :=
  [create, drop, table, showWord, tables, describe, desc, ifWord, existsWord,
   select, insert, update, delete, into, values, set, fromWord, whereWord, andWord,
   join, inner, left, outer, on,
   primary, key, unique, notWord, null, default,
   trueWord, falseWord]

/-- A keyword in capitals. -/
def text : Keyword → String
  | create => "CREATE"
  | drop => "DROP"
  | table => "TABLE"
  | showWord => "SHOW"
  | tables => "TABLES"
  | describe => "DESCRIBE"
  | desc => "DESC"
  | ifWord => "IF"
  | existsWord => "EXISTS"
  | select => "SELECT"
  | insert => "INSERT"
  | update => "UPDATE"
  | delete => "DELETE"
  | into => "INTO"
  | values => "VALUES"
  | set => "SET"
  | fromWord => "FROM"
  | whereWord => "WHERE"
  | andWord => "AND"
  | join => "JOIN"
  | inner => "INNER"
  | left => "LEFT"
  | outer => "OUTER"
  | on => "ON"
  | primary => "PRIMARY"
  | key => "KEY"
  | unique => "UNIQUE"
  | notWord => "NOT"
  | null => "NULL"
  | default => "DEFAULT"
  | trueWord => "TRUE"
  | falseWord => "FALSE"

/-- A keyword in lower case. -/
def lowerText (k : Keyword) : String := String.ofList (k.text.toList.map Char.toLower)

/-- The keyword that a word spells, in any letter case. -/
def ofWord? (word : List Char) : Option Keyword :=
  all.find? fun k => k.text.toList = word.flatMap Text.asciiUpper

/-- Whether a keyword can never be a name. -/
def reserved : Keyword → Bool
  | create | drop | select | insert | update | delete | into | fromWord | whereWord | andWord
  | join | on | notWord | null | trueWord | falseWord => true
  | _ => false

/-- The name that a keyword stands for where a name is asked for. -/
def name? (k : Keyword) : Option String := if k.reserved then none else some k.lowerText

theorem mem_all (k : Keyword) : k ∈ all := by cases k <;> decide

end Keyword
end Sql
end PocketSql
