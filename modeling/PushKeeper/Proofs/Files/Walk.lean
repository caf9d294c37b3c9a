import PushKeeper.Files.Tree

namespace PushKeeper.Files.Tree

@[simp] theorem node?_nil (t : Tree) : t.node? [] = some .directory := rfl

section

variable {α β : Type} [BEq α] [LawfulBEq α] [DecidableEq α] (p q : α)

theorem lookup_cons_eq_ite (pair : α × β) (pairs : List (α × β)) :
    (pair :: pairs).lookup q = if q = pair.1 then some pair.2 else pairs.lookup q := by
  obtain ⟨r, b⟩ := pair
  by_cases h : q = r
  · simp [h]
  · have hne : (q == r) = false := by simpa using h
    simp [List.lookup_cons, hne, h]

theorem lookup_filter_ne (pairs : List (α × β)) :
    (pairs.filter (·.1 ≠ p)).lookup q = if q = p then none else pairs.lookup q := by
  induction pairs with
  | nil => simp
  | cons pair pairs ih =>
    by_cases hp : pair.1 = p
    · rw [List.filter_cons_of_neg (by simpa using hp), ih, lookup_cons_eq_ite, hp]
      by_cases hq : q = p <;> simp [hq]
    · rw [List.filter_cons_of_pos (by simpa using hp), lookup_cons_eq_ite, lookup_cons_eq_ite, ih]
      by_cases hq : q = pair.1 <;> simp [hq, hp]

end

section

variable (t : Tree) (p q : Place)

theorem node?_unset (hp : p ≠ []) : (t.unset p).node? q = if q = p then none else t.node? q := by
  simp only [node?, unset, lookup_filter_ne]
  by_cases hq : q = []
  · simp [hq, Ne.symm hp]
  · simp [hq]

theorem node?_set (hp : p ≠ []) (n : Node) :
    (t.set p n).node? q = if q = p then some n else t.node? q := by
  simp only [node?, set, lookup_cons_eq_ite, lookup_filter_ne]
  by_cases hq : q = []
  · simp [hq, Ne.symm hp]
  · by_cases hqp : q = p <;> simp [hq, hqp, hp]

end

structure KeepsDirectories (t t' : Tree) : Prop where
  here_eq : t'.here = t.here
  directory {p : Place} : t.node? p = some .directory → t'.node? p = some .directory

variable {t t' : Tree} {p q : Place} {names : List String}

theorem node?_of_walk_cons {name : String} {r : Located} (h : t.walk p (name :: names) = .ok r) :
    t.node? p = some .directory := by
  rw [walk] at h
  split at h <;> simp_all

theorem node?_of_walk_directory (h : t.walk p names = .ok (.found q .directory)) :
    t.node? p = some .directory := by
  cases names with
  | nil =>
    rw [walk] at h
    split at h <;> simp_all
  | cons name names => exact node?_of_walk_cons h

theorem KeepsDirectories.walk_eq (hk : t.KeepsDirectories t')
    (h : t.walk p names = .ok (.found q .directory)) : t'.walk p names = .ok (.found q .directory) := by
  have hp := hk.directory (node?_of_walk_directory h)
  -- The walk goes on at the same place (`case5`), above it (`case6`) or below it (`case8`).
  fun_induction walk t p names with
  | case6 p rest _ _ ih =>
    have hup := ih h (hk.directory (node?_of_walk_directory h))
    simp_all [walk]
  | case8 p name rest _ hv hup hlong hs ih =>
    have hdown := hk.directory (node?_of_walk_directory h)
    simp [walk, hp, hv, hup, hlong, hdown, ih h hdown]
  | _ => simp_all [walk]

theorem walk_append (h : t.walk p names = .ok (.found q .directory)) (rest : List String) :
    t.walk p (names ++ rest) = t.walk q rest := by
  fun_induction walk t p names with
  | case8 p name names hp hv hup hlong hs ih => simp [walk, hp, hv, hup, hlong, hs, ih h]
  | _ => simp_all [walk]

theorem walk_of_concat {name : String} (hv : isVoid name = false) {r : Located}
    (h : t.walk p (names ++ [name]) = .ok r) : ∃ d, t.walk p names = .ok (.found d .directory) := by
  -- An empty name could follow a place where nothing is, so it has to be ruled out.
  have hne : name ≠ "" := by rintro rfl; cases hv
  fun_induction walk t p names with
  | case1 p n hn =>
    obtain rfl : n = .directory := Option.some.inj (hn.symm.trans (node?_of_walk_cons h))
    exact ⟨p, rfl⟩
  | case8 p name names hp hv hup hlong hs ih =>
    exact ih (by simpa [walk, hp, hv, hup, hlong, hs] using h)
  | case9 p name names hp hv hup hlong hs hall =>
    simp [walk, hp, hv, hup, hlong, hs, hne] at h
  | case10 p name names hp hv hup hlong hs hall =>
    simp [walk, hp, hv, hup, hlong, hs, hne] at h
  | _ => simp_all [walk]

def EndsAt (t : Tree) (p : Place) (names : List String) (q : Place) : Prop :=
  (∃ id bytes, t.walk p names = .ok (.found q (.file id bytes))) ∨ t.walk p names = .ok (.vacant q false)

theorem EndsAt.walk_eq (h : t.EndsAt p names q) (hk : t.KeepsDirectories t') {n : Node}
    (hq : t'.node? q = some n) : t'.walk p names = .ok (.found q n) := by
  unfold EndsAt at h
  fun_induction walk t p names with
  | case1 p m hm => simp_all [walk]
  | case5 p name rest hp hv ih => simp [walk, hk.directory hp, hv, ih h]
  | case6 p rest hp hv ih => simp [walk, hk.directory hp, hv, ih h]
  | case8 p name rest hp hv hup hlong hs ih =>
    -- What is below is a directory if the walk goes on from there, and its end if not.
    have hdown : (t'.node? (p ++ [name])).isSome = true := by
      cases rest with
      | nil =>
        obtain rfl : p ++ [name] = q := by
          rw [walk] at h
          split at h <;> simp_all
        rw [hq]
        rfl
      | cons next rest =>
        have hdir : t.node? (p ++ [name]) = some .directory := by
          obtain ⟨id, bytes, h⟩ | h := h
          · exact node?_of_walk_cons h
          · exact node?_of_walk_cons h
        rw [hk.directory hdir]
        rfl
    simp [walk, hk.directory hp, hv, hup, hlong, hdown, ih h]
  | case9 p name rest hp hv hup hlong hs hall =>
    obtain ⟨rfl, rfl⟩ : p ++ [name] = q ∧ rest = [] := by simpa using h
    simp [walk, hk.directory hp, hv, hup, hlong, hq]
  | _ => simp_all

theorem walk_of_all_empty (hp : t.node? p = some .directory) (h : names.all (· = "")) :
    t.walk p names = .ok (.found p .directory) := by
  induction names with
  | nil => simp [walk, hp]
  | cons name names ih =>
    obtain ⟨rfl, hrest⟩ : name = "" ∧ names.all (· = "") := by simpa using h
    rw [walk, hp]
    exact ih hrest

theorem KeepsDirectories.walk_of_vacant (hk : t.KeepsDirectories t') {slash : Bool}
    (hq : t'.node? q = some .directory) (h : t.walk p names = .ok (.vacant q slash)) :
    t'.walk p names = .ok (.found q .directory) := by
  fun_induction walk t p names with
  | case5 p name rest hp hv ih => simp [walk, hk.directory hp, hv, ih h]
  | case6 p rest hp hv ih => simp [walk, hk.directory hp, hv, ih h]
  | case8 p name rest hp hv hup hlong hs ih =>
    have hdown : t'.node? (p ++ [name]) = some .directory := by
      cases rest with
      | nil =>
        rw [walk] at h
        split at h <;> simp_all
      | cons next rest => exact hk.directory (node?_of_walk_cons h)
    simp [walk, hk.directory hp, hv, hup, hlong, hdown, ih h]
  | case9 p name rest hp hv hup hlong hs hall =>
    obtain ⟨rfl, -⟩ : p ++ [name] = q ∧ (!rest.isEmpty) = slash := by simpa using h
    simp [walk, hk.directory hp, hv, hup, hlong, hq, walk_of_all_empty hq hall]
  | _ => simp_all

theorem EndsAt.eq_of_singleton {name : String} (h : t.EndsAt p [name] q)
    (hp : t.node? p = some .directory) : q = p ++ [name] ∨ name = ".." ∧ q = p.dropLast := by
  unfold EndsAt at h
  simp only [walk, hp] at h
  split at h
  · simp at h
  split at h
  next hup =>
    right
    refine ⟨hup, ?_⟩
    split at h <;> simp_all
  split at h
  · simp at h
  split at h
  · left
    split at h <;> simp_all
  · left
    simp_all

theorem walk_singleton_congr {name : String} (hp : t.node? p = some .directory)
    (hp' : t'.node? p = some .directory) (hup : t'.node? p.dropLast = t.node? p.dropLast)
    (hdown : t'.node? (p ++ [name]) = t.node? (p ++ [name])) : t'.walk p [name] = t.walk p [name] := by
  simp only [walk, hp, hp', hup, hdown]

theorem locate_eq_walk {path : String} {r : Located} (h : t.locate path = .ok r) (t' : Tree) :
    t'.locate path = t'.walk (if isAbsolute path then [] else t'.here) (segments path) := by
  unfold locate at h
  split at h
  · cases h
  next hnul =>
  split at h
  · cases h
  next hempty =>
  split at h
  · cases h
  next hlong =>
  rw [locate, if_neg hnul, if_neg hempty, if_neg hlong]

theorem locate_of_append {path more : String} (hne : path ≠ "") {r : Located}
    (h : t.locate (path ++ more) = .ok r) :
    t.locate path = t.walk (if isAbsolute path then [] else t.here) (segments path) := by
  unfold locate at h
  split at h
  · cases h
  next hnul =>
  split at h
  · cases h
  split at h
  · cases h
  next hlong =>
  have hempty : path.isEmpty = false := by simpa using hne
  have hpath : ¬ path.toList.contains '\x00' := by
    intro hmem
    exact hnul (by simp_all)
  have hsize : ¬ longestPath < path.utf8ByteSize := by
    rw [String.utf8ByteSize_append] at hlong
    omega
  rw [locate, if_neg hpath, hempty, if_neg (by simp), if_neg hsize]

theorem node?_of_found {path : String} {n : Node} (h : t.locate path = .ok (.found q n)) :
    t.node? q = some n := by
  rw [locate_eq_walk h] at h
  exact node?_of_walk_found h

theorem node?_of_vacant {path : String} {slash : Bool} (h : t.locate path = .ok (.vacant q slash)) :
    t.node? q = none := by
  rw [locate_eq_walk h] at h
  exact node?_of_walk_vacant h

theorem KeepsDirectories.locate_eq (hk : t.KeepsDirectories t') {path : String}
    (h : t.locate path = .ok (.found q .directory)) : t'.locate path = .ok (.found q .directory) := by
  rw [locate_eq_walk h, hk.here_eq]
  rw [locate_eq_walk h] at h
  exact hk.walk_eq h

theorem isDirectory_iff {path : String} :
    t.isDirectory path = true ↔ ∃ q, t.locate path = .ok (.found q .directory) := by
  unfold isDirectory
  split
  next q hq => simp [hq]
  next hne => simpa using hne

theorem KeepsDirectories.isDirectory_eq (hk : t.KeepsDirectories t') {path : String}
    (h : t.isDirectory path = true) : t'.isDirectory path = true := by
  obtain ⟨q, hq⟩ := isDirectory_iff.1 h
  exact isDirectory_iff.2 ⟨q, hk.locate_eq hq⟩

inductive Reaches (t : Tree) (path : String) (q : Place) : Prop
  | file {id : Nat} {bytes : ByteArray} (h : t.locate path = .ok (.found q (.file id bytes)))
  | vacant (h : t.locate path = .ok (.vacant q false))

namespace Reaches

variable {path : String}

theorem locate_eq_walk (h : t.Reaches path q) (t' : Tree) :
    t'.locate path = t'.walk (if isAbsolute path then [] else t'.here) (segments path) := by
  cases h with
  | file h => exact Tree.locate_eq_walk h t'
  | vacant h => exact Tree.locate_eq_walk h t'

theorem node?_ne (h : t.Reaches path q) : t.node? q ≠ some .directory := by
  cases h with
  | file h => simp [node?_of_found h]
  | vacant h => simp [node?_of_vacant h]

theorem ne_nil (h : t.Reaches path q) : q ≠ [] := by
  rintro rfl
  exact h.node?_ne (node?_nil t)

theorem endsAt (h : t.Reaches path q) :
    t.EndsAt (if isAbsolute path then [] else t.here) (segments path) q := by
  cases h with
  | file h => exact .inl ⟨_, _, Tree.locate_eq_walk h t ▸ h⟩
  | vacant h => exact .inr (Tree.locate_eq_walk h t ▸ h)

theorem locate_eq (h : t.Reaches path q) (hk : t.KeepsDirectories t') {n : Node}
    (hq : t'.node? q = some n) : t'.locate path = .ok (.found q n) := by
  rw [h.locate_eq_walk, hk.here_eq]
  exact h.endsAt.walk_eq hk hq

end Reaches

theorem keepsDirectories_set (hp : t.node? p = none) (n : Node) : t.KeepsDirectories (t.set p n) := by
  have hne : p ≠ [] := by rintro rfl; cases hp
  refine ⟨rfl, fun {q} hq => ?_⟩
  rw [node?_set t p q hne, if_neg, hq]
  rintro rfl
  simp [hp] at hq

section

variable {path : String}

theorem isDirectory_of_makeDirectory (h : t.makeDirectory path = .ok t') : t'.isDirectory path = true := by
  rcases hl : t.locate path with e | (⟨q, n⟩ | ⟨q, slash⟩) <;> rw [makeDirectory, hl] at h
  · cases h
  · cases h
  · obtain rfl : t.set q .directory = t' := Except.ok.inj h
    have hnone := node?_of_vacant hl
    have hne : q ≠ [] := by rintro rfl; cases hnone
    have hk := keepsDirectories_set hnone .directory
    have hfound : (t.set q .directory).locate path = .ok (.found q .directory) := by
      rw [locate_eq_walk hl, hk.here_eq]
      rw [locate_eq_walk hl] at hl
      exact hk.walk_of_vacant (by rw [node?_set t q q hne, if_pos rfl]) hl
    exact isDirectory_iff.2 ⟨q, hfound⟩

theorem isDirectory_of_ensureDirectory (h : t.ensureDirectory path = .ok t') :
    t'.isDirectory path = true := by
  unfold ensureDirectory at h
  split at h
  next made hmade =>
    cases h
    exact isDirectory_of_makeDirectory hmade
  next =>
    split at h
    next hdir => cases h; exact hdir
    next => cases h

theorem attempt_ok {result : Except Fault Tree} (h : t.attempt result = (.ok (), t')) : result = .ok t' := by
  cases result with
  | error e => cases h
  | ok made => exact congrArg Except.ok (congrArg Prod.snd h)

theorem isDirectory_of_layDirectoriesWith {fuel : Nat} (hne : path ≠ "")
    (h : t.layDirectoriesWith path fuel = (.ok (), t')) : t'.isDirectory path = true := by
  have hempty : path.isEmpty = false := by simpa using hne
  cases fuel with
  | zero => cases h
  | succ fuel =>
    simp only [layDirectoriesWith, hempty, Bool.false_eq_true, if_false] at h
    split at h
    next made hmade =>
      cases h
      exact isDirectory_of_ensureDirectory hmade
    next =>
      split at h
      next => cases h
      next above hparent =>
        split at h
        next => exact isDirectory_of_ensureDirectory (attempt_ok h)
        next => cases h
    next => cases h

theorem isDirectory_of_layDirectories (hne : path ≠ "") (h : t.layDirectories path = (.ok (), t')) :
    t'.isDirectory path = true :=
  isDirectory_of_layDirectoriesWith hne h

theorem layDirectories_eq (h : t.isDirectory path = true) : t.layDirectories path = (.ok (), t) := by
  obtain ⟨q, hq⟩ := isDirectory_iff.1 h
  have hmake : t.makeDirectory path = .error .alreadyExists := by rw [makeDirectory, hq]; rfl
  have hensure : t.ensureDirectory path = .ok t := by rw [ensureDirectory, hmake]; simp [h]
  simp only [layDirectories, layDirectoriesWith, hensure]
  split <;> rfl

end

end PushKeeper.Files.Tree
