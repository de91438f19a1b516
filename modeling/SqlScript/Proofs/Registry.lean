import Mathlib.Data.List.Induction
import Mathlib.Data.List.Nodup
import SqlScript.Proofs.Text.ByteOrder
import SqlScript.Proofs.Text.Lowercase
import SqlScript.Registry

/-!
# What a registry answers after a series of calls

A registry is a map on normal names in which the last store counts. Each call amounts to storing
some vendors under the names that it is given (`Registry.call_snd`), so what a registry holds after a
series of calls is told by the list of all that was stored (`Registry.after_eq_store`,
`Registry.find?_store`). The keys stay in normal form throughout (`Registry.IsNormal`); this is why a
name that has been made normal twice finds the same as one made normal once.
-/

namespace SqlScript
open Text

theorem NameMap.names_nodup {α : Type} (m : NameMap α) : m.names.Nodup :=
  m.names_pairwise.imp String.ne_of_lt

theorem NameMap.get?_of_mem {α : Type} {m : NameMap α} {e : String × α} (h : e ∈ m.entries) :
    m.get? e.1 = some e.2 := by
  obtain ⟨value, hvalue⟩ := NameMap.mem_names_iff.1 (List.mem_map_of_mem h)
  obtain ⟨d, hd, rfl⟩ := Option.map_eq_some_iff.1 hvalue
  have hname : d.1 = e.1 := by simpa using List.find?_some hd
  have hde : d = e := List.inj_on_of_nodup_map m.names_nodup (List.mem_of_find?_eq_some hd) h hname
  rw [hvalue, hde]

namespace VendorEntry

/-- The first entry that is faulty, with its fault. -/
def FirstFaulty (entries : List VendorEntry) (fault : EntryFault) : Prop :=
  ∃ before e behind, entries = before ++ e :: behind ∧ (∀ f ∈ before, ∃ v, f.build = .ok v) ∧
    e.build = .error fault

/-- The last entry whose name is the given one, spaces around it and letter case aside. -/
def LastNamed (entries : List VendorEntry) (name : String) (e : VendorEntry) : Prop :=
  ∃ before behind, entries = before ++ e :: behind ∧ normalName e.name = normalName name ∧
    ∀ f ∈ behind, normalName f.name ≠ normalName name

/-- The vendor that an entry describes, under the name as the entry has it. -/
def named? (e : VendorEntry) : Option (String × Vendor) :=
  e.build.toOption.map fun v => (e.name, v.toVendor)

theorem named?_eq {e : VendorEntry} {v : CustomVendor} (h : e.build = .ok v) :
    e.named? = some (e.name, v.toVendor) := by
  rw [named?, h]
  rfl

theorem build_name {e : VendorEntry} {v : CustomVendor} (h : e.build = .ok v) :
    v.name = normalName e.name := by
  simp only [build] at h
  repeat' split at h
  all_goals cases h
  rfl

theorem exists_buildAll {entries : List VendorEntry} (h : ∀ e ∈ entries, ∃ v, e.build = .ok v) :
    ∃ vs, buildAll entries = .ok vs := by
  induction entries with
  | nil => exact ⟨[], rfl⟩
  | cons e rest ih =>
    obtain ⟨⟨v, hv⟩, hrest⟩ := List.forall_mem_cons.1 h
    obtain ⟨vs, hvs⟩ := ih hrest
    exact ⟨v :: vs, by rw [buildAll, hv, hvs]; rfl⟩

theorem FirstFaulty.buildAll {entries : List VendorEntry} {fault : EntryFault}
    (h : FirstFaulty entries fault) : buildAll entries = .error fault := by
  obtain ⟨before, e, behind, rfl, hbefore, he⟩ := h
  induction before with
  | nil => rw [List.nil_append, VendorEntry.buildAll, he]
  | cons f before ih =>
    obtain ⟨⟨v, hv⟩, hbefore⟩ := List.forall_mem_cons.1 hbefore
    rw [List.cons_append, VendorEntry.buildAll, hv, ih hbefore]
    rfl

theorem exists_firstFaulty {entries : List VendorEntry} (h : ∃ e ∈ entries, ∀ v, e.build ≠ .ok v) :
    ∃ fault, FirstFaulty entries fault := by
  induction entries with
  | nil => simp at h
  | cons e rest ih =>
    cases he : e.build with
    | error fault => exact ⟨fault, [], e, rest, rfl, nofun, he⟩
    | ok v =>
      obtain ⟨f, hf, hfault⟩ := h
      have hrest : f ∈ rest := (List.mem_cons.1 hf).resolve_left fun hfe => hfault v (hfe ▸ he)
      obtain ⟨fault, before, e', behind, rfl, hbefore, he'⟩ := ih ⟨f, hrest, hfault⟩
      exact ⟨fault, e :: before, e', behind, rfl, List.forall_mem_cons.2 ⟨⟨v, he⟩, hbefore⟩, he'⟩

theorem exists_lastNamed {entries : List VendorEntry} {name : String}
    (h : ∃ e ∈ entries, normalName e.name = normalName name) : ∃ last, LastNamed entries name last := by
  induction entries with
  | nil => simp at h
  | cons e rest ih =>
    by_cases hrest : ∃ f ∈ rest, normalName f.name = normalName name
    · obtain ⟨last, before, behind, rfl, hlast, hbehind⟩ := ih hrest
      exact ⟨last, e :: before, behind, rfl, hlast, hbehind⟩
    · push Not at hrest
      obtain ⟨f, hf, hname⟩ := h
      rcases List.mem_cons.1 hf with rfl | hf
      · exact ⟨f, [], rest, rfl, hname, hrest⟩
      · exact absurd hname (hrest f hf)

end VendorEntry

namespace Registry

/-- A change of a registry. -/
inductive Call
  | register (name : String) (v : Vendor)
  | registerEntries (entries : List VendorEntry)

inductive Answer
  | replaced (old : Option Vendor)
  | registered
  | refused (fault : EntryFault)

/-- The answer to a call and the registry after it. -/
def call (r : Registry) : Call → Answer × Registry
  | .register name v => (.replaced (r.exchange name v).1, (r.exchange name v).2)
  | .registerEntries entries =>
    match r.registerEntries entries with
    | .ok r' => (.registered, r')
    | .error fault => (.refused fault, r)

def after (r : Registry) (calls : List Call) : Registry :=
  calls.foldl (fun r c => (r.call c).2) r

/-- What a call stores if it succeeds: vendors, under the names it is given. -/
def Call.stored : Call → List (String × Vendor)
  | .register name v => [(name, v)]
  | .registerEntries entries =>
    match VendorEntry.buildAll entries with
    | .ok _ => entries.filterMap VendorEntry.named?
    | .error _ => []

/-- The vendor stored last under a name with the normal form of the given one. -/
def lastUnder? (name : String) (stored : List (String × Vendor)) : Option Vendor :=
  (stored.reverse.find? fun p => normalName p.1 == normalName name).map (·.2)

def store (r : Registry) (stored : List (String × Vendor)) : Registry :=
  stored.foldl (fun r p => r.register p.1 p.2) r

def IsNormal (r : Registry) : Prop :=
  ∀ name ∈ r.names, normalName name = name

variable {r : Registry} {name other : String} {v : Vendor}

theorem exchange_eq (r : Registry) (name : String) (v : Vendor) :
    r.exchange name v = (r.find? name, r.register name v) := by
  simp only [exchange, NameMap.exchange_eq, find?, register]

theorem register_normalName (r : Registry) (name : String) (v : Vendor) :
    r.register (normalName name) v = r.register name v := by
  rw [register, normalName_normalName, register]

theorem foldl_register {entries : List VendorEntry} {vs : List CustomVendor}
    (h : VendorEntry.buildAll entries = .ok vs) (r : Registry) :
    vs.foldl (fun r v => r.register v.name v.toVendor) r = r.store (entries.filterMap VendorEntry.named?) := by
  induction entries generalizing vs r with
  | nil =>
    cases h
    rfl
  | cons e rest ih =>
    rw [VendorEntry.buildAll] at h
    cases he : e.build with
    | error fault => simp [he] at h
    | ok v =>
      simp only [he] at h
      cases hrest : VendorEntry.buildAll rest with
      | error fault => simp [hrest, Except.map] at h
      | ok ws =>
        simp only [hrest, Except.map, Except.ok.injEq] at h
        subst h
        rw [List.foldl_cons, VendorEntry.build_name he, register_normalName, ih hrest,
          List.filterMap_cons_some (VendorEntry.named?_eq he)]
        rfl

/-- A call stores what it is to store, under the names as given. -/
theorem call_snd (r : Registry) (c : Call) : (r.call c).2 = r.store c.stored := by
  cases c with
  | register name v => simp only [call, exchange_eq, Call.stored, store, List.foldl_cons, List.foldl_nil]
  | registerEntries entries =>
    simp only [call, registerEntries, Call.stored]
    cases h : VendorEntry.buildAll entries with
    | error fault => rfl
    | ok vs => exact foldl_register h r

theorem after_eq_store (r : Registry) (calls : List Call) :
    r.after calls = r.store (calls.flatMap Call.stored) := by
  induction calls generalizing r with
  | nil => rfl
  | cons c rest ih =>
    rw [after, List.foldl_cons, ← after, ih, call_snd, List.flatMap_cons, store, store, store,
      List.foldl_append]

theorem find?_register (r : Registry) (name other : String) (v : Vendor) :
    (r.register name v).find? other = if normalName name = normalName other then some v else r.find? other :=
  NameMap.get?_insert ..

/-- The last store under a name counts, and what was there before if there is none. -/
theorem find?_store (r : Registry) (stored : List (String × Vendor)) (name : String) :
    (r.store stored).find? name = (lastUnder? name stored).or (r.find? name) := by
  induction stored using List.reverseRecOn with
  | nil => rfl
  | append_singleton stored p ih =>
    rw [store, List.foldl_append, List.foldl_cons, List.foldl_nil, ← store, find?_register, ih]
    by_cases h : normalName p.1 = normalName name <;> simp [lastUnder?, h]

theorem lastUnder?_append_cons {before behind : List (String × Vendor)}
    (hname : normalName other = normalName name)
    (hbehind : ∀ p ∈ behind, normalName p.1 ≠ normalName name) :
    lastUnder? name (before ++ (other, v) :: behind) = some v := by
  have hnone : behind.reverse.find? (fun p => normalName p.1 == normalName name) = none := by
    simpa using hbehind
  rw [lastUnder?, List.reverse_append, List.reverse_cons, List.append_assoc, List.find?_append, hnone]
  simp [hname]

/-- Of the vendors that a list of entries describes, the last of a name counts. -/
theorem lastUnder?_named {entries : List VendorEntry} {last : VendorEntry} {v : CustomVendor}
    (hlast : VendorEntry.LastNamed entries name last) (hv : last.build = .ok v) :
    lastUnder? name (entries.filterMap VendorEntry.named?) = some v.toVendor := by
  obtain ⟨before, behind, rfl, hname, hbehind⟩ := hlast
  rw [List.filterMap_append, List.filterMap_cons_some (VendorEntry.named?_eq hv)]
  refine lastUnder?_append_cons hname ?_
  intro p hp
  obtain ⟨f, hf, hfp⟩ := List.mem_filterMap.1 hp
  obtain ⟨w, -, rfl⟩ := Option.map_eq_some_iff.1 hfp
  exact hbehind f hf

theorem isNormal_empty : IsNormal empty := nofun

theorem IsNormal.register (h : r.IsNormal) (name : String) (v : Vendor) : (r.register name v).IsNormal := by
  intro n hn
  obtain ⟨e, he, rfl⟩ := List.mem_map.1 hn
  rcases NameMap.mem_insertSorted he with rfl | he
  · exact normalName_normalName name
  · exact h _ (List.mem_map_of_mem he)

theorem IsNormal.store (h : r.IsNormal) (stored : List (String × Vendor)) : (r.store stored).IsNormal := by
  induction stored generalizing r with
  | nil => exact h
  | cons p rest ih => exact ih (h.register p.1 p.2)

/-- Storing under keys in normal form is storing under names. -/
theorem store_of_normal (m : NameMap Vendor) {stored : List (String × Vendor)}
    (h : ∀ p ∈ stored, normalName p.1 = p.1) :
    (⟨stored.foldl (fun m p => m.insert p.1 p.2) m⟩ : Registry) = store ⟨m⟩ stored := by
  induction stored generalizing m with
  | nil => rfl
  | cons p rest ih =>
    obtain ⟨hp, hrest⟩ := List.forall_mem_cons.1 h
    rw [List.foldl_cons, ih _ hrest, Registry.store, Registry.store, List.foldl_cons, Registry.register, hp]

theorem builtins_eq_store : builtins = empty.store (Vendor.builtins.map fun v => (v.name, v)) := by
  have hnormal : ∀ p ∈ Vendor.builtins.map fun v => (v.name, v), normalName p.1 = p.1 := by
    have hnames : ∀ v ∈ Vendor.builtins, normalName v.name = v.name := by decide
    simpa using hnames
  exact store_of_normal .empty hnormal

theorem get_eq_ok_iff : r.get name = .ok v ↔ r.find? name = some v := by
  rw [get]
  cases r.find? name <;> simp

theorem get_of_find?_eq_none (h : r.find? name = none) : r.get name = .error ⟨name, r.names⟩ := by
  simp [get, h]

theorem contains_iff : r.contains name ↔ ∃ v, r.get name = .ok v := by
  simp only [get_eq_ok_iff]
  exact Option.isSome_iff_exists

theorem get_toOption (r : Registry) (name : String) : (r.get name).toOption = r.find? name := by
  rw [get]
  cases r.find? name <;> rfl

theorem IsNormal.get_of_mem (h : r.IsNormal) {e : String × Vendor} (he : e ∈ r.vendors.entries) :
    r.get e.1 = .ok e.2 := by
  have hname : normalName e.1 = e.1 := h _ (List.mem_map_of_mem he)
  rw [get_eq_ok_iff, find?, hname]
  exact NameMap.get?_of_mem he

theorem get_store (r : Registry) (stored : List (String × Vendor)) (name : String) :
    (r.store stored).get name = match (lastUnder? name stored).or (r.find? name) with
      | some v => .ok v
      | none => .error ⟨name, (r.store stored).names⟩ := by
  cases h : (lastUnder? name stored).or (r.find? name) with
  | some v => exact get_eq_ok_iff.2 (by rw [find?_store, h])
  | none => exact get_of_find?_eq_none (by rw [find?_store, h])

/-- Entries that are all in order are all registered, and each name finds the last of its vendors. -/
theorem call_registerEntries_of_forall {entries : List VendorEntry}
    (h : ∀ e ∈ entries, ∃ v, e.build = .ok v) (r : Registry) :
    (r.call (.registerEntries entries)).1 = .registered ∧
      ∀ e ∈ entries, ∃ last v, VendorEntry.LastNamed entries e.name last ∧ last.build = .ok v ∧
        (r.call (.registerEntries entries)).2.get e.name = .ok v.toVendor := by
  obtain ⟨vs, hvs⟩ := VendorEntry.exists_buildAll h
  have hanswer : (r.call (.registerEntries entries)).1 = .registered := by
    simp only [call, registerEntries, hvs]
    rfl
  refine ⟨hanswer, ?_⟩
  intro e he
  obtain ⟨last, hlast⟩ := VendorEntry.exists_lastNamed ⟨e, he, rfl⟩
  have hmem : last ∈ entries := by
    obtain ⟨before, behind, heq, -⟩ := hlast
    simp [heq]
  obtain ⟨v, hv⟩ := h last hmem
  refine ⟨last, v, hlast, hv, ?_⟩
  rw [call_snd, get_eq_ok_iff, find?_store]
  simp only [Call.stored, hvs]
  rw [lastUnder?_named hlast hv, Option.some_or]

/-- Of entries with a fault in them none is registered. -/
theorem call_registerEntries_of_firstFaulty {entries : List VendorEntry} {fault : EntryFault}
    (h : VendorEntry.FirstFaulty entries fault) (r : Registry) :
    r.call (.registerEntries entries) = (.refused fault, r) := by
  simp only [call, registerEntries, h.buildAll]
  rfl

theorem call_register_fst (r : Registry) (name : String) (v : Vendor) :
    (r.call (.register name v)).1 = .replaced (r.get name).toOption := by
  simp only [call, exchange_eq, get_toOption]

theorem names_pairwise_utf8 (r : Registry) : r.names.Pairwise (utf8 · < utf8 ·) :=
  r.vendors.names_pairwise.imp utf8_lt_utf8

/-- What is found under a name after any calls is what was stored last under a name with its normal
form; a list of entries is stored as a whole or not at all, and the names are listed in the order of
their bytes. -/
theorem get_after_eq_last {start : Registry} {held : List (String × Vendor)}
    (hstart : (start, held) ∈ [(empty, []), (builtins, Vendor.builtins.map fun v => (v.name, v))])
    (calls : List Call) :
    let r := start.after calls
    (∀ name, r.get name = match lastUnder? name (held ++ calls.flatMap Call.stored) with
      | some v => .ok v
      | none => .error ⟨name, r.names⟩) ∧
    (∀ entries, (∀ e ∈ entries, ∃ v, e.build = .ok v) →
      (r.call (.registerEntries entries)).1 = .registered ∧
      ∀ e ∈ entries, ∃ last v, VendorEntry.LastNamed entries e.name last ∧ last.build = .ok v ∧
        (r.call (.registerEntries entries)).2.get e.name = .ok v.toVendor) ∧
    (∀ entries, (∃ e ∈ entries, ∀ v, e.build ≠ .ok v) →
      ∃ fault, VendorEntry.FirstFaulty entries fault ∧
        r.call (.registerEntries entries) = (.refused fault, r)) ∧
    (∀ name v, (r.call (.register name v)).1 = .replaced (r.get name).toOption) ∧
    (∀ name, r.contains name ↔ ∃ v, r.get name = .ok v) ∧
    r.names.Pairwise (utf8 · < utf8 ·) ∧ r.names.length = r.size ∧
    (∀ name ∈ r.names, ∃ v, r.get name = .ok v) ∧
    r.vendors.entries.map Prod.fst = r.names ∧ ∀ p ∈ r.vendors.entries, r.get p.1 = .ok p.2 := by
  intro r
  have hr : r = empty.store (held ++ calls.flatMap Call.stored) := by
    have hheld : start = empty.store held := by
      simp only [List.mem_cons, Prod.mk.injEq, List.not_mem_nil, or_false] at hstart
      rcases hstart with ⟨rfl, rfl⟩ | ⟨rfl, rfl⟩
      · rfl
      · exact builtins_eq_store
    rw [show r = _ from after_eq_store start calls, hheld, store, store, store, List.foldl_append]
  have hnormal : r.IsNormal := hr ▸ isNormal_empty.store _
  have hentry : ∀ p ∈ r.vendors.entries, r.get p.1 = .ok p.2 := fun p hp => hnormal.get_of_mem hp
  refine ⟨?_, ?_, ?_, call_register_fst r, fun name => contains_iff, names_pairwise_utf8 r, ?_, ?_, rfl,
    hentry⟩
  · intro name
    rw [hr, get_store, show empty.find? name = none from rfl, Option.or_none]
  · intro entries hvalid
    exact call_registerEntries_of_forall hvalid r
  · intro entries hfaulty
    obtain ⟨fault, hfirst⟩ := VendorEntry.exists_firstFaulty hfaulty
    exact ⟨fault, hfirst, call_registerEntries_of_firstFaulty hfirst r⟩
  · exact List.length_map _
  · intro name hname
    obtain ⟨p, hp, rfl⟩ := List.mem_map.1 hname
    exact ⟨p.2, hentry p hp⟩

/-- A batch with one name twice in it, after a batch that was refused and a vendor in place of a
built-in one. -/
theorem get_after_eq_last_repeated :
    let entries : List VendorEntry := [{ name := "ÉTÉ" }, { name := " été\n", serverPort := some 9092 }]
    let r := builtins.after [.register " Oracle\n" mysql, .registerEntries [{ name := "h2" }, { name := " " }]]
    (∀ e ∈ entries, ∃ v, e.build = .ok v) ∧
      r.get "ORACLE" = .ok mysql ∧ r.get "h2" = .error ⟨"h2", r.names⟩ ∧
      (r.call (.registerEntries entries)).1 = .registered ∧
      ∃ v, (r.call (.registerEntries entries)).2.get "ÉTÉ" = .ok v ∧ v.serverPort = some 9092 := by
  intro entries r
  obtain ⟨hget, hall, -⟩ := get_after_eq_last (.tail _ (.head _))
    [.register " Oracle\n" mysql, .registerEntries [{ name := "h2" }, { name := " " }]]
  have hvalid : ∀ e ∈ entries, ∃ v, e.build = .ok v :=
    List.forall_mem_cons.2 ⟨⟨_, rfl⟩, List.forall_mem_singleton.2 ⟨_, rfl⟩⟩
  obtain ⟨hregistered, hfound⟩ := hall entries hvalid
  refine ⟨hvalid, (hget "ORACLE").trans rfl, (hget "h2").trans rfl, hregistered, ?_⟩
  obtain ⟨_, v, -, -, hv⟩ := hfound _ (List.mem_cons_self ..)
  have hport : ((r.call (.registerEntries entries)).2.get "ÉTÉ").toOption.bind (·.serverPort) = some 9092 :=
    rfl
  rw [hv] at hport
  exact ⟨v.toVendor, hv, hport⟩

end Registry
end SqlScript
