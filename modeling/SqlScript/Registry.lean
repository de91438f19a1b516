import SqlScript.NameMap
import SqlScript.Vendor.Builtin
import SqlScript.Vendor.Entry

/-!
# The registry of vendors

A registry keeps vendors under their normal names. What is registered last under a name counts, and
a list of entries is registered as a whole or not at all.
-/

namespace SqlScript

/-- The vendors that are known, under their normal names. -/
structure Registry where
  vendors : NameMap Vendor

/-- A name under which no vendor is kept. -/
structure UnknownVendor where
  name : String
  known : List String
deriving Repr, DecidableEq

def UnknownVendor.message (e : UnknownVendor) : String :=
  "unsupported database vendor: '" ++ e.name ++ "' (known: " ++ ", ".intercalate e.known ++ ")"

namespace Registry

def empty : Registry := ⟨.empty⟩

def builtins : Registry :=
  ⟨.ofList (Vendor.builtins.map fun v => (v.name, v))⟩

/-- Keeps a vendor under a name, in place of the one that was there. -/
def register (r : Registry) (name : String) (v : Vendor) : Registry :=
  ⟨r.vendors.insert (normalName name) v⟩

/-- `register`, with the vendor that was there. -/
def exchange (r : Registry) (name : String) (v : Vendor) : Option Vendor × Registry :=
  let (old, vendors) := r.vendors.exchange (normalName name) v
  (old, ⟨vendors⟩)

def find? (r : Registry) (name : String) : Option Vendor :=
  r.vendors.get? (normalName name)

def contains (r : Registry) (name : String) : Bool :=
  r.vendors.contains (normalName name)

/-- The names in order: the map keeps them sorted. -/
def names (r : Registry) : List String :=
  r.vendors.names

def size (r : Registry) : Nat :=
  r.vendors.size

/-- The vendor under a name, which has to be known. -/
def get (r : Registry) (name : String) : Except UnknownVendor Vendor :=
  match r.find? name with
  | some v => .ok v
  | none => .error ⟨name, r.names⟩

/-- Keeps the vendors of all entries under their own names, if none of the entries is faulty. -/
def registerEntries (r : Registry) (entries : List VendorEntry) : Except EntryFault Registry :=
  (VendorEntry.buildAll entries).map fun vendors =>
    vendors.foldl (fun r v => r.register v.name v.toVendor) r

end Registry
end SqlScript
