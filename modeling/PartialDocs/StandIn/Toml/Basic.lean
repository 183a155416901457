import PartialDocs.Text.Basic

/-!
# TOML documents

A part of the stand-in for the library for TOML.  The value of a document, and the rules by
which its lines build tables.  A table may be opened by a header once.  Dotted keys extend
only tables that dotted keys made, or that stand for the path to a deeper header.  `insert?`,
`openTable?` and `openElement?` refuse whatever defines a key or a table twice.
-/

set_option autoImplicit false

namespace PartialDocs

/-- How a table came to be. -/
inductive TableOrigin where
  /-- Opened by a header, or an element of an array of tables. -/
  | header
  /-- On the path to a table that a header opened. -/
  | implied
  /-- Made by dotted keys. -/
  | dotted
  /-- Written between braces. -/
  | inlined
  deriving DecidableEq, Repr

/-- A TOML value.  Of numbers with a fraction and of points in time it is only known that they are
well formed. -/
inductive Toml where
  | string (s : Text)
  | integer (i : Int)
  | float
  | boolean (b : Bool)
  | time
  | array (items : List Toml)
  | table (origin : TableOrigin) (entries : List (Text × Toml))
  /-- An array of tables in the order of their headers, as tables. -/
  | tables (items : List Toml)

namespace Toml

/-- The keys of a table with their values, in order. -/
abbrev Entries := List (Text × Toml)

/-- The value of a key. -/
def get? (entries : Entries) (key : Text) : Option Toml := entries.lookup key

/-- Give a key that is there another value. -/
def set (entries : Entries) (key : Text) (v : Toml) : Entries :=
  entries.map fun (k, old) => if k == key then (k, v) else (k, old)

/-- Take a key out. -/
def erase (entries : Entries) (key : Text) : Entries := entries.filter fun (k, _) => k != key

/-- Change the last of some tables. -/
def updateLast? (f : Entries → Option Entries) (items : List Toml) : Option (List Toml) :=
  match items.reverse with
  | .table o entries :: before =>
    (f entries).map fun entries => (Toml.table o entries :: before).reverse
  | _ => none

/-- Change the table that a path leads to from an entry, which is made where it is missing. -/
def updateEntry? (missing : Option Toml) (enter : TableOrigin → Bool)
    (f : TableOrigin → Entries → Option Entries) (entries : Entries) (key : Text) :
    Option Entries :=
  match get? entries key with
  | none =>
    match missing with
    | some (.table o es) => (f o es).map fun es => entries ++ [(key, .table o es)]
    | _ => none
  | some (.table o es) =>
    if enter o then (f o es).map fun es => set entries key (.table o es) else none
  | some (.tables items) =>
    (updateLast? (f .header) items).map fun items => set entries key (.tables items)
  | some _ => none

/-- Add a key with its value to a table.  The path of dotted keys before it must lead through tables
that dotted keys may extend, and end in one that they made. -/
def insert? (dotted : Bool) (key : Text) (v : Toml) :
    List Text → TableOrigin → Entries → Option Entries
  | [], origin, entries =>
    if (origin == .dotted) != dotted || (get? entries key).isSome then none
    else some (entries ++ [(key, v)])
  | step :: path, _, entries =>
    updateEntry? (some (.table .dotted [])) (fun o => o == .dotted || o == .implied)
      (insert? dotted key v path) entries step

/-- Open the table of a header, given the last key of the header. -/
def openHere? (key : Text) (entries : Entries) : Option Entries :=
  match get? entries key with
  | none => some (entries ++ [(key, .table .header [])])
  | some (.table .implied es) => some (erase entries key ++ [(key, .table .header es)])
  | some _ => none

/-- Open one more element of an array of tables, given the last key of its header. -/
def openElementHere? (key : Text) (entries : Entries) : Option Entries :=
  match get? entries key with
  | none => some (entries ++ [(key, .tables [.table .header []])])
  | some (.tables items) => some (set entries key (.tables (items ++ [.table .header []])))
  | some _ => none

/-- Change the table that the path of a header leads to. -/
def underHeader? (f : TableOrigin → Entries → Option Entries) :
    List Text → TableOrigin → Entries → Option Entries
  | [], origin, entries => f origin entries
  | step :: path, _, entries =>
    updateEntry? (some (.table .implied [])) (fun o => o != .inlined)
      (underHeader? f path) entries step

/-- Open the table of a header. -/
def openTable? (path : List Text) (key : Text) (root : Entries) : Option Entries :=
  underHeader? (fun _ => openHere? key) path .header root

/-- Open one more element of an array of tables. -/
def openElement? (path : List Text) (key : Text) (root : Entries) : Option Entries :=
  underHeader? (fun _ => openElementHere? key) path .header root

/-- Add a key with its value below the header at hand. -/
def assign? (header path : List Text) (key : Text) (v : Toml) (root : Entries) : Option Entries :=
  underHeader? (fun origin entries => insert? (!path.isEmpty) key v path origin entries) header
    .header root

end Toml

end PartialDocs
