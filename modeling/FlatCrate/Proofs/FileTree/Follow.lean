import FlatCrate.FileTree.RealPath
import Mathlib.Data.List.Perm.Subperm

/-!
# Where a path leads is its real location

Opening a path and resolving it are two different walks. Opening puts the names of a link's target
in front of the names that remain and counts the links; resolving goes into the target and remembers
the links it is in. Whatever can be opened is resolved to the place where it was opened.

The common ground is a walk that goes into the targets and counts all links it opens. Counting shows
that no link is met again inside of its own target: it would open fewer links than itself.
-/

namespace FlatCrate.FileTree

variable {tree : FileTree}

/-- The names that stand for an entry of a directory. -/
def IsEntryName (name : String) : Prop := ¬(name = "" ∨ name = ".") ∧ name ≠ ".."

section Follow

variable {jump : Location → List String → Except Fault Arrival}

/-- How following names up to the first link succeeds, name by name. -/
inductive Follows (tree : FileTree) (jump : Location → List String → Except Fault Arrival) :
    Location → List String → Arrival → Prop
  | here (place : Location) : Follows tree jump place [] (.found place)
  | stay {place : Location} {name : String} {rest : List String} {arrival : Arrival} :
      tree.isDirectoryAt place = true → name = "" ∨ name = "." →
      Follows tree jump place rest arrival → Follows tree jump place (name :: rest) arrival
  | up {place : Location} {rest : List String} {arrival : Arrival} :
      tree.isDirectoryAt place = true → Follows tree jump place.tail rest arrival →
      Follows tree jump place (".." :: rest) arrival
  | vacant {place : Location} {name : String} :
      tree.isDirectoryAt place = true → IsEntryName name → name.utf8ByteSize ≤ maxNameBytes →
      tree.find? (name :: place) = none → Follows tree jump place [name] (.vacant place name)
  | enter {place : Location} {name : String} {rest : List String} {entry : Entry}
      {arrival : Arrival} :
      tree.isDirectoryAt place = true → IsEntryName name → name.utf8ByteSize ≤ maxNameBytes →
      tree.find? (name :: place) = some entry → (∀ target, entry ≠ .link target) →
      Follows tree jump (name :: place) rest arrival →
      Follows tree jump place (name :: rest) arrival
  | jump {place : Location} {name target : String} {rest : List String} {arrival : Arrival} :
      tree.isDirectoryAt place = true → IsEntryName name → name.utf8ByteSize ≤ maxNameBytes →
      tree.find? (name :: place) = some (.link target) →
      jump (targetStart place target) (targetNames target ++ rest) = .ok arrival →
      Follows tree jump place (name :: rest) arrival

/-- What following names gives is what the rules say. -/
theorem follows_of_follow {names : List String} {place : Location} {arrival : Arrival}
    (h : tree.follow jump place names = .ok arrival) : Follows tree jump place names arrival := by
  induction names generalizing place with
  | nil =>
    obtain rfl : Arrival.found place = arrival := by simpa [follow] using h
    exact .here place
  | cons name rest ih =>
    rw [follow] at h
    by_cases hplace : tree.isDirectoryAt place = false
    · simp [hplace] at h
    rw [if_neg hplace] at h
    rw [Bool.not_eq_false] at hplace
    by_cases hstay : name = "" ∨ name = "."
    · rw [if_pos hstay] at h
      exact .stay hplace hstay (ih h)
    rw [if_neg hstay] at h
    by_cases hup : name = ".."
    · rw [if_pos hup] at h
      subst hup
      exact .up hplace (ih h)
    rw [if_neg hup] at h
    by_cases hlong : maxNameBytes < name.utf8ByteSize
    · simp [hlong] at h
    rw [if_neg hlong] at h
    rw [Nat.not_lt] at hlong
    cases hfound : tree.find? (name :: place) with
    | none =>
      cases rest with
      | nil =>
        obtain rfl : Arrival.vacant place name = arrival := by simpa [hfound] using h
        exact .vacant hplace ⟨hstay, hup⟩ hlong hfound
      | cons _ _ => simp [hfound] at h
    | some entry =>
      cases entry with
      | link target => exact .jump hplace ⟨hstay, hup⟩ hlong hfound (by simpa [hfound] using h)
      | file content =>
        exact .enter hplace ⟨hstay, hup⟩ hlong hfound (by simp) (ih (by simpa [hfound] using h))
      | directory =>
        exact .enter hplace ⟨hstay, hup⟩ hlong hfound (by simp) (ih (by simpa [hfound] using h))

/-- What the rules say is what following names gives. -/
theorem Follows.follow_eq {names : List String} {place : Location} {arrival : Arrival}
    (h : Follows tree jump place names arrival) : tree.follow jump place names = .ok arrival := by
  induction h with
  | here place => rfl
  | stay hplace hstay _ ih => rw [follow, hplace, if_neg (by decide), if_pos hstay, ih]
  | up hplace _ ih =>
    rw [follow, hplace, if_neg (by decide), if_neg (by decide), if_pos rfl, ih]
  | vacant hplace hentry hlong hfind =>
    rw [follow, hplace, if_neg (by decide), if_neg hentry.1, if_neg hentry.2,
      if_neg (Nat.not_lt.mpr hlong), hfind]
    rfl
  | @enter _ _ _ entry _ hplace hentry hlong hfind hplain _ ih =>
    rw [follow, hplace, if_neg (by decide), if_neg hentry.1, if_neg hentry.2,
      if_neg (Nat.not_lt.mpr hlong), hfind]
    cases entry with
    | link target => exact absurd rfl (hplain target)
    | _ => exact ih
  | jump hplace hentry hlong hfind hjump =>
    rw [follow, hplace, if_neg (by decide), if_neg hentry.1, if_neg hentry.2,
      if_neg (Nat.not_lt.mpr hlong), hfind]
    exact hjump

end Follow

/-- Following names from a place leads to a location and opens a number of links, those inside of
the targets of links included. -/
inductive Leads (tree : FileTree) : Location → List String → Nat → Location → Prop
  | here (place : Location) : Leads tree place [] 0 place
  | stay {place location : Location} {name : String} {rest : List String} {opened : Nat} :
      name = "" ∨ name = "." → Leads tree place rest opened location →
      Leads tree place (name :: rest) opened location
  | up {place location : Location} {rest : List String} {opened : Nat} :
      Leads tree place.tail rest opened location → Leads tree place (".." :: rest) opened location
  | enter {place location : Location} {name : String} {rest : List String} {opened : Nat} :
      IsEntryName name → (∀ target, tree.find? (name :: place) ≠ some (.link target)) →
      Leads tree (name :: place) rest opened location →
      Leads tree place (name :: rest) opened location
  | jump {place aim location : Location} {name target : String} {rest : List String}
      {inside behind : Nat} :
      IsEntryName name → tree.find? (name :: place) = some (.link target) →
      Leads tree (targetStart place target) (targetNames target) inside aim →
      Leads tree aim rest behind location →
      Leads tree place (name :: rest) (inside + behind + 1) location

namespace Leads

/-- Names lead to one location only, and always through the same number of links. -/
theorem unique {place a b : Location} {names : List String} {m n : Nat}
    (ha : Leads tree place names m a) (hb : Leads tree place names n b) : m = n ∧ a = b := by
  induction ha generalizing n b with
  | here => cases hb; exact ⟨rfl, rfl⟩
  | stay hname _ ih =>
    cases hb with
    | stay _ hb => exact ih hb
    | up _ => simp at hname
    | enter hentry _ _ => exact absurd hname hentry.1
    | jump hentry _ _ _ => exact absurd hname hentry.1
  | up _ ih =>
    cases hb with
    | stay hname _ => simp at hname
    | up hb => exact ih hb
    | enter hentry _ _ => exact absurd rfl hentry.2
    | jump hentry _ _ _ => exact absurd rfl hentry.2
  | enter hentry hplain _ ih =>
    cases hb with
    | stay hname _ => exact absurd hname hentry.1
    | up _ => exact absurd rfl hentry.2
    | enter _ _ hb => exact ih hb
    | jump _ hlink _ _ => exact absurd hlink (hplain _)
  | jump hentry hlink _ _ ihInside ihBehind =>
    cases hb with
    | stay hname _ => exact absurd hname hentry.1
    | up _ => exact absurd rfl hentry.2
    | enter _ hplain _ => exact absurd hlink (hplain _)
    | jump _ hlink' hinside hbehind =>
      obtain rfl : _ = _ := by simpa using hlink.symm.trans hlink'
      obtain ⟨rfl, rfl⟩ := ihInside hinside
      obtain ⟨rfl, rfl⟩ := ihBehind hbehind
      exact ⟨rfl, rfl⟩

/-- A walk over two lists of names passes a place between them. -/
theorem split {first second : List String} {place location : Location} {opened : Nat}
    (h : Leads tree place (first ++ second) opened location) :
    ∃ before after middle, Leads tree place first before middle ∧
      Leads tree middle second after location ∧ opened = before + after := by
  induction first generalizing place opened with
  | nil => exact ⟨0, opened, place, .here place, h, (Nat.zero_add opened).symm⟩
  | cons name first ih =>
    cases h with
    | stay hname h =>
      obtain ⟨before, after, middle, hfirst, hsecond, rfl⟩ := ih h
      exact ⟨before, after, middle, .stay hname hfirst, hsecond, rfl⟩
    | up h =>
      obtain ⟨before, after, middle, hfirst, hsecond, rfl⟩ := ih h
      exact ⟨before, after, middle, .up hfirst, hsecond, rfl⟩
    | enter hentry hplain h =>
      obtain ⟨before, after, middle, hfirst, hsecond, rfl⟩ := ih h
      exact ⟨before, after, middle, .enter hentry hplain hfirst, hsecond, rfl⟩
    | jump hentry hlink hinside h =>
      obtain ⟨before, after, middle, hfirst, hsecond, rfl⟩ := ih h
      exact ⟨_, after, middle, .jump hentry hlink hinside hfirst, hsecond, by omega⟩

end Leads

/-! ## Opening -/

/-- Following names up to the first link is the beginning of a walk, if what comes behind the link
is one. -/
theorem Follows.leads {jump : Location → List String → Except Fault Arrival}
    (hjump : ∀ {place names location}, jump place names = .ok (.found location) →
      ∃ opened, Leads tree place names opened location)
    {names : List String} {place location : Location}
    (h : Follows tree jump place names (.found location)) :
    ∃ opened, Leads tree place names opened location := by
  generalize harrival : Arrival.found location = arrival at h
  induction h with
  | here place =>
    obtain rfl : location = place := by simpa using harrival
    exact ⟨0, .here location⟩
  | stay _ hstay _ ih =>
    obtain ⟨opened, h⟩ := ih harrival
    exact ⟨opened, .stay hstay h⟩
  | up _ _ ih =>
    obtain ⟨opened, h⟩ := ih harrival
    exact ⟨opened, .up h⟩
  | vacant _ _ _ _ => simp at harrival
  | enter _ hentry _ hfind hplain _ ih =>
    obtain ⟨opened, h⟩ := ih harrival
    refine ⟨opened, .enter hentry ?_ h⟩
    intro target hlink
    exact hplain target (Option.some.inj (hfind.symm.trans hlink))
  | jump _ hentry _ hfind hgo =>
    obtain ⟨opened, h⟩ := hjump (harrival ▸ hgo)
    obtain ⟨inside, behind, aim, hinside, hbehind, rfl⟩ := h.split
    exact ⟨_, .jump hentry hfind hinside hbehind⟩

/-- Opening a path is a walk. -/
theorem leads_of_walk {links : Nat} {names : List String} {place location : Location}
    (h : tree.walk links place names = .ok (.found location)) :
    ∃ opened, Leads tree place names opened location := by
  induction links generalizing place names location with
  | zero => exact (follows_of_follow h).leads (by simp)
  | succ links ih => exact (follows_of_follow h).leads ih

/-! ## Resolving -/

/-- What is known of the links whose targets are being resolved by a walk that opens `opened`
links: they are different, and each of them opens at least as many. -/
structure Pending (tree : FileTree) (opened : Nat) (pending : List Location) : Prop where
  nodup : pending.Nodup
  opens : ∀ link ∈ pending, ∃ name place target inside aim, link = name :: place ∧
    tree.find? link = some (.link target) ∧
    Leads tree (targetStart place target) (targetNames target) inside aim ∧ opened ≤ inside

/-- An entry that is found below the root is one of the entries of the tree. -/
theorem mem_entries_of_find? {location : Location} {entry : Entry} (hne : location ≠ [])
    (h : tree.find? location = some entry) : (location, entry) ∈ tree.entries := by
  cases location with
  | nil => exact absurd rfl hne
  | cons name place =>
    obtain ⟨before, after, hentries, -⟩ := List.lookup_eq_some_iff.mp h
    simp [hentries]

namespace Pending

variable {m n inside : Nat} {pending : List Location} {name target : String} {place aim : Location}

/-- Nothing is pending at first. -/
theorem nil : Pending tree n [] := ⟨List.nodup_nil, by simp⟩

/-- What holds for some links that may be followed holds for fewer of them. -/
theorem mono (h : Pending tree n pending) (hle : m ≤ n) : Pending tree m pending := by
  refine ⟨h.nodup, fun link hlink => ?_⟩
  obtain ⟨name, place, target, inside, aim, heq, hfind, hleads, hopened⟩ := h.opens link hlink
  exact ⟨name, place, target, inside, aim, heq, hfind, hleads, Nat.le_trans hle hopened⟩

/-- There are no more pending links than entries. -/
theorem length_le (h : Pending tree n pending) : pending.length ≤ tree.size := by
  have hsub : pending ⊆ tree.entries.map Prod.fst := by
    intro link hlink
    obtain ⟨name, place, target, -, -, rfl, hfind, -, -⟩ := h.opens link hlink
    exact List.mem_map_of_mem (mem_entries_of_find? (List.cons_ne_nil _ _) hfind)
  simpa [size] using (h.nodup.subperm hsub).length_le

/-- A link that opens fewer links than the walk is not pending. -/
theorem notMem (h : Pending tree n pending)
    (hlink : tree.find? (name :: place) = some (.link target))
    (hleads : Leads tree (targetStart place target) (targetNames target) inside aim)
    (hlt : inside < n) : name :: place ∉ pending := by
  intro hmem
  obtain ⟨name', place', target', inside', aim', heq, hfind, hleads', hle⟩ := h.opens _ hmem
  obtain ⟨rfl, rfl⟩ := List.cons.inj heq
  obtain rfl : target = target' := by simpa using hlink.symm.trans hfind
  have hinside := (hleads.unique hleads').1
  omega

/-- Such a link may become pending while its target is resolved. -/
theorem cons (h : Pending tree n pending)
    (hlink : tree.find? (name :: place) = some (.link target))
    (hleads : Leads tree (targetStart place target) (targetNames target) inside aim)
    (hlt : inside < n) : Pending tree inside ((name :: place) :: pending) := by
  refine ⟨List.nodup_cons.mpr ⟨h.notMem hlink hleads hlt, h.nodup⟩, fun link hmem => ?_⟩
  rcases List.mem_cons.mp hmem with rfl | hmem
  · exact ⟨name, place, target, inside, aim, rfl, hlink, hleads, Nat.le_refl _⟩
  · exact (h.mono (Nat.le_of_lt hlt)).opens link hmem

end Pending

section ResolveWith

variable {enter : Location → Location → List String → Resolution} {place : Location} {name : String}
  {rest : List String}

/-- A name that stands for the place itself is passed over. -/
theorem resolveWith_stay (h : name = "" ∨ name = ".") :
    tree.resolveWith enter place (name :: rest) = tree.resolveWith enter place rest := by
  rw [resolveWith, if_pos h]

/-- Two dots lead to the place above. -/
theorem resolveWith_up :
    tree.resolveWith enter place (".." :: rest) = tree.resolveWith enter place.tail rest := by
  rw [resolveWith, if_neg (by decide), if_pos rfl]

/-- Any other name leads below, unless a link stands there. -/
theorem resolveWith_enter (h : IsEntryName name)
    (hplain : ∀ target, tree.find? (name :: place) ≠ some (.link target)) :
    tree.resolveWith enter place (name :: rest) = tree.resolveWith enter (name :: place) rest := by
  rw [resolveWith, if_neg h.1, if_neg h.2]
  split
  · next target hlink => exact absurd hlink (hplain target)
  · rfl

/-- A link leads where its target does. -/
theorem resolveWith_jump {target : String} {aim : Location} (h : IsEntryName name)
    (hlink : tree.find? (name :: place) = some (.link target))
    (haim : enter (name :: place) (targetStart place target) (targetNames target) = .whole aim) :
    tree.resolveWith enter place (name :: rest) = tree.resolveWith enter aim rest := by
  rw [resolveWith, if_neg h.1, if_neg h.2]
  simp only [hlink, haim]

end ResolveWith

/-- A walk is resolved to where it leads, as long as there is room for the links that are opened
inside each other. -/
theorem resolveNames_of_leads {names : List String} {place location : Location} {opened : Nat}
    (h : Leads tree place names opened location) {depth : Nat} {pending : List Location}
    (hpending : Pending tree opened pending) (hdepth : tree.size < depth + pending.length) :
    tree.resolveNames depth pending place names = .whole location := by
  -- Never more links are pending than the tree has entries, so one more may always be opened.
  obtain _ | depth := depth
  · have := hpending.length_le
    omega
  rw [resolveNames]
  induction h generalizing depth pending with
  | here place => rfl
  | stay hname _ ih => rw [resolveWith_stay hname, ih hpending depth hdepth]
  | up _ ih => rw [resolveWith_up, ih hpending depth hdepth]
  | enter hentry hplain _ ih => rw [resolveWith_enter hentry hplain, ih hpending depth hdepth]
  | jump hentry hlink hleads _ ihInside ihBehind =>
    have hinside := hpending.cons hlink hleads (by omega)
    have hsize := hinside.length_le
    simp only [List.length_cons] at hsize
    obtain _ | depth := depth
    · omega
    · rw [resolveWith_jump hentry hlink]
      · exact ihBehind (hpending.mono (by omega)) (depth + 1) hdepth
      · rw [if_neg (hpending.notMem hlink hleads (by omega)), resolveNames]
        apply ihInside hinside depth
        simp only [List.length_cons]
        omega

/-- The place where a path is opened is its real location. -/
theorem realLocation_of_locate {path : Path} {location : Location}
    (h : tree.locate path = .ok (.found location)) : tree.realLocation path = some location := by
  rw [locate] at h
  split_ifs at h
  obtain ⟨opened, hleads⟩ := leads_of_walk h
  rw [realLocation, resolveNames_of_leads hleads .nil (by simp)]

/-- A file that can be read has a real location, and it stands there. -/
theorem realLocation_of_readBytes {path : Path} {content : ByteArray}
    (h : tree.readBytes path = .ok content) : ∃ location,
    tree.realLocation path = some location ∧ tree.find? location = some (.file content) := by
  simp only [readBytes, entryOf, locationOf] at h
  cases hlocate : tree.locate path with
  | error fault => simp [hlocate] at h
  | ok arrival =>
    cases arrival with
    | vacant directory name => simp [hlocate] at h
    | found location =>
      refine ⟨location, realLocation_of_locate hlocate, ?_⟩
      cases hfind : tree.find? location with
      | none => simp [hlocate, hfind] at h
      | some entry =>
        cases entry <;> simp_all

/-- Different locations of regular files are different entries of the tree. -/
theorem length_le_fileCount {locations : List Location} (hnodup : locations.Nodup)
    (hfiles : ∀ location ∈ locations, ∃ content, tree.find? location = some (.file content)) :
    locations.length ≤ tree.fileCount := by
  have hsub : locations ⊆ (tree.entries.filter fun e => e.2.isFile).map Prod.fst := by
    intro location hmem
    obtain ⟨content, hfind⟩ := hfiles location hmem
    have hne : location ≠ [] := by
      rintro rfl
      simp [find?] at hfind
    have hentry := mem_entries_of_find? hne hfind
    exact List.mem_map.mpr ⟨_, List.mem_filter.mpr ⟨hentry, rfl⟩, rfl⟩
  simpa [fileCount, List.countP_eq_length_filter] using (hnodup.subperm hsub).length_le

end FlatCrate.FileTree
