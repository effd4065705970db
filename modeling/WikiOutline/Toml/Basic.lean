/-
# TOML tables

A table remembers how it came to be, because that decides who may add to it: a
header may define a table that is only implied, a dotted key may add to tables
that dotted keys made, and an inline table is closed.

Key definitions: `Toml`, `Toml.TableKind`, `Toml.descend`, `Toml.insertKey`,
`Toml.defineTable`, `Toml.appendElement`.
-/

namespace WikiOutline

/-- How a table came to be. -/
inductive Toml.TableKind where
  /-- On the way to a header's table. -/
  | implied
  /-- On the way of a dotted key. -/
  | dotted
  /-- By a header. -/
  | defined
  /-- Between braces. -/
  | inline
  deriving Repr, BEq, DecidableEq

/-- A value of a TOML document. -/
inductive Toml where
  | string (s : String)
  | integer (i : Int)
  | boolean (b : Bool)
  | float
  | dateTime
  | array (items : List Toml)
  | table (kind : Toml.TableKind) (entries : List (String × Toml))
  /-- The tables of a repeated header, in order. -/
  | tables (elements : List (List (String × Toml)))
  deriving Repr

namespace Toml

instance : Inhabited Toml := ⟨.boolean false⟩

/-- The kind and the entries of a table. -/
abbrev Table := TableKind × List (String × Toml)

/-- Replaces the value of a key, or adds the key at the end. -/
def setEntry (key : String) (value : Toml) : List (String × Toml) → List (String × Toml)
  | [] => [(key, value)]
  | e :: es => if e.1 == key then (key, value) :: es else e :: setEntry key value es

/-- A table that a dotted key may add to. -/
def TableKind.opensToDots : TableKind → Bool
  | .implied => true
  | .dotted => true
  | _ => false

/-- A table that the path of a header may lead through. -/
def TableKind.opensToHeaders : TableKind → Bool
  | .inline => false
  | _ => true

/-- Changes the table at the end of a path; tables missing on the way are made.
A header's path leads into the last table of a repeated header, a dotted key's
path does not. -/
def descend (byHeader : Bool) (change : Table → Option Table) :
    List String → Table → Option Table
  | [], t => change t
  | key :: path, (kind, entries) =>
    match entries.lookup key with
    | none =>
      (descend byHeader change path (if byHeader then .implied else .dotted, [])).map
        fun t => (kind, setEntry key (.table t.1 t.2) entries)
    | some (.table inner es) =>
      if (if byHeader then inner.opensToHeaders else inner.opensToDots) then
        (descend byHeader change path (inner, es)).map
          fun t => (kind, setEntry key (.table t.1 t.2) entries)
      else none
    | some (.tables elements) =>
      if byHeader then
        match elements.getLast? with
        | none => none
        | some es =>
          (descend byHeader change path (.defined, es)).map
            fun t => (kind, setEntry key (.tables (elements.dropLast ++ [t.2])) entries)
      else none
    | some _ => none

/-- Adds a key that is not there. -/
def addKey (key : String) (value : Toml) (t : Table) : Option Table :=
  if (t.2.lookup key).isSome then none else some (t.1, t.2 ++ [(key, value)])

/-- Adds a value under a dotted key.  The table it goes to must be one that
dotted keys made, unless the key has one part only. -/
def insertKey (keys : List String) (value : Toml) (t : Table) : Option Table :=
  match keys.getLast? with
  | none => none
  | some last =>
    let path := keys.dropLast
    descend false
      (fun t => if !path.isEmpty && t.1 != .dotted then none else addKey last value t) path t

/-- Defines the table of a header.  Only a table that is implied may be there. -/
def defineTable (keys : List String) (t : Table) : Option Table :=
  match keys.getLast? with
  | none => none
  | some last =>
    descend true (fun (kind, entries) =>
      match entries.lookup last with
      | none => some (kind, entries ++ [(last, .table .defined [])])
      | some (.table .implied es) => some (kind, setEntry last (.table .defined es) entries)
      | some _ => none) keys.dropLast t

/-- Adds a table to those of a repeated header. -/
def appendElement (keys : List String) (t : Table) : Option Table :=
  match keys.getLast? with
  | none => none
  | some last =>
    descend true (fun (kind, entries) =>
      match entries.lookup last with
      | none => some (kind, entries ++ [(last, .tables [[]])])
      | some (.tables elements) => some (kind, setEntry last (.tables (elements ++ [[]])) entries)
      | some _ => none) keys.dropLast t

end Toml

end WikiOutline
