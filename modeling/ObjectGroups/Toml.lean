/-
Documents of tables in the TOML format, version 1.0, as trees.

A document is a table whose entries are values and tables. Where a table was
defined decides what may still be added to it, so each one keeps its origin:
a header defines a table once; a header also opens the tables on its path,
which a later header may still define; dotted keys open tables that only
dotted keys of the same section may enter; an inline table is closed.

Numbers with a fraction and dates are kept as they are written.
-/
import ObjectGroups.Table

namespace ObjectGroups

inductive Toml.Origin where
  /-- Defined by a header, or the document itself. -/
  | header
  /-- Opened on the path of a header. -/
  | path
  /-- Opened by a dotted key. -/
  | dotted
  /-- Written between braces. -/
  | braces
deriving DecidableEq, Repr

inductive Toml where
  | text (s : String)
  | integer (n : Int)
  | real (s : String)
  | bool (b : Bool)
  | moment (s : String)
  | list (xs : List Toml)
  | table (origin : Toml.Origin) (entries : List (String × Toml))
  /-- Tables that headers in double brackets define one after the other. -/
  | tables (ts : List (List (String × Toml)))

namespace Toml

abbrev Entries := Table String Toml

/-- Changes the table at the end of a path. Tables missing on the way are
opened; the last of several tables of a name stands for all. `dotted` tells
whether the path is one of keys, which enters no table that a header defined. -/
def within (dotted : Bool) (change : Origin → Entries → Option Entries) :
    List String → Origin → Entries → Option Entries
  | [], origin, es => change origin es
  | k :: path, _, es => match es.get? k with
    | none =>
      let origin : Origin := if dotted then .dotted else .path
      (within dotted change path origin []).map fun inner => es.put k (.table origin inner)
    | some (.table .braces _) => none
    | some (.table origin inner) =>
      if dotted && origin = .header then none
      else (within dotted change path origin inner).map fun inner => es.put k (.table origin inner)
    | some (.tables ts) => match ts.getLast? with
      | none => none
      | some inner => (within dotted change path .header inner).map fun inner =>
        es.put k (.tables (ts.dropLast ++ [inner]))
    | some _ => none

/-- Adds an entry that has not been there. A dotted key ends in a table that
dotted keys opened. -/
def insert (path : List String) (k : String) (v : Toml) (origin : Origin) (es : Entries) :
    Option Entries :=
  within true (fun origin es =>
    if (origin = .dotted) ≠ !path.isEmpty then none
    else if es.has k then none
    else some (es.put k v)) path origin es

/-- An entry of a section: the path of its key but for the last name, that name, and the value. -/
structure Entry where
  path : List String
  key : String
  value : Toml

def insertAll (origin : Origin) : List Entry → Entries → Option Entries
  | [], es => some es
  | e :: rest, es => (insert e.path e.key e.value origin es).bind (insertAll origin rest)

/-- A header and the entries below it. -/
structure Section where
  /-- In double brackets: one more table of that name. -/
  repeated : Bool
  path : List String
  key : String
  entries : List Entry

/-- Defines a table, which may have been opened before but not defined. -/
def Section.define (s : Section) (_ : Origin) (es : Entries) : Option Entries :=
  let opened : Option Entries := match es.get? s.key with
    | none => some []
    | some (.table .path inner) => some inner
    | some _ => none
  (opened.bind (insertAll .header s.entries)).map fun inner => es.put s.key (.table .header inner)

/-- Adds a table to those of its name. -/
def Section.append (s : Section) (_ : Origin) (es : Entries) : Option Entries :=
  let before : Option (List Entries) := match es.get? s.key with
    | none => some []
    | some (.tables ts) => some ts
    | some _ => none
  match before, insertAll .header s.entries [] with
  | some ts, some inner => some (es.put s.key (.tables (ts ++ [inner])))
  | _, _ => none

def Section.add (s : Section) (es : Entries) : Option Entries :=
  within false (if s.repeated then s.append else s.define) s.path .header es

def addAll : List Section → Entries → Option Entries
  | [], es => some es
  | s :: rest, es => (s.add es).bind (addAll rest)

/-- The document with those entries before the first header and those sections. -/
def ofSections (top : List Entry) (sections : List Section) : Option Toml :=
  ((insertAll .header top []).bind (addAll sections)).map (.table .header)

/-- An inline table of those entries. -/
def ofEntries (entries : List Entry) : Option Toml :=
  (insertAll .braces entries []).map (.table .braces)

end Toml

end ObjectGroups
