import Mathlib.Data.List.Infix
import PushKeeper.Proofs.Files.Parents
import PushKeeper.Proofs.Files.Places

namespace PushKeeper.Files

theorem segments_ne_nil (path : String) : segments path ≠ [] := by
  obtain ⟨front, last, hpath, -⟩ := exists_segments path
  simp [hpath]

theorem dropVoid_ne_nil {names : List String} (h : names ≠ []) : dropVoid names ≠ [] := by
  cases names with
  | nil => exact absurd rfl h
  | cons first rest => simp [dropVoid]

theorem dropVoid_of_no_parent {path : String} (h : parent? path = none) :
    dropVoid (segments path) = [""] := by
  rw [parent?] at h
  split at h
  next hrev => exact absurd (List.reverse_eq_nil_iff.1 hrev) (dropVoid_ne_nil (segments_ne_nil path))
  next hrev => simpa using congrArg List.reverse hrev
  next => split at h <;> cases h

/-- The names that lead to the directory above a path. -/
def above (path : String) : List String := (dropVoid (segments path)).dropLast

theorem above_prefix_dropLast (path : String) : above path <+: (segments path).dropLast := by
  obtain ⟨voids, -, hpath⟩ := exists_dropVoid (segments path)
  rw [above]
  generalize dropVoid (segments path) = kept at hpath
  cases voids using List.reverseRecOn with
  | nil =>
    rw [hpath, List.append_nil]
  | append_singleton voids void =>
    rw [hpath, ← List.append_assoc, List.dropLast_concat]
    exact (List.dropLast_prefix kept).trans (List.prefix_append ..)

theorem above_prefix_segments (path : String) : above path <+: segments path :=
  (above_prefix_dropLast path).trans (List.dropLast_prefix _)

theorem above_cases {path dir : String} (hp : parent? path = some dir) :
    dir = "" ∧ above path = [] ∨ dir = "/" ∧ (∀ name ∈ above path, isVoid name = true) ∨
      dir ≠ "" ∧ dropVoid (segments dir) = segments dir ∧
        ∃ voids, above path = segments dir ++ voids ∧ ∀ name ∈ voids, isVoid name = true := by
  obtain ⟨names, voids, last, hkept, hvoids, htrimmed, hdir⟩ := parent?_cases hp
  have habove : above path = names ++ voids := by rw [above, hkept, List.dropLast_concat]
  obtain ⟨rfl, rfl, rfl⟩ | ⟨rfl, rfl⟩ | ⟨hnil, hroot, rfl⟩ := hdir
  · exact .inl ⟨rfl, habove⟩
  · exact .inr (.inl ⟨rfl, by simpa [habove, isVoid] using hvoids⟩)
  · have hslash : ∀ name ∈ names, '/' ∉ name.toList := fun name hn =>
      slash_not_mem_of_mem_segments ((above_prefix_segments path).subset (by simp [habove, hn]))
    have hsegments := segments_intercalate hnil hslash
    refine .inr (.inr ⟨fun hempty => hroot ?_, by rw [hsegments, htrimmed], voids, by rw [hsegments, habove],
      hvoids⟩)
    rw [← hsegments, hempty]
    rfl

theorem parent?_root : parent? "/" = none := by decide +kernel

theorem length_of_parent? {path dir : String} (hp : parent? path = some dir) (hne : path ≠ "") :
    dir.length < path.length := by
  have hpos {s : String} (hs : s ≠ "") : 0 < s.length := by
    rw [← String.length_toList]
    exact List.length_pos_iff.2 (by simpa using hs)
  by_cases hdir : dir = ""
  · exact hdir ▸ hpos hne
  obtain ⟨more, hmore⟩ := exists_append_of_parent? hp hdir
  rw [hmore, String.length_append]
  refine Nat.lt_add_of_pos_right (hpos ?_)
  rintro rfl
  obtain rfl : path = dir := by simpa using hmore
  obtain ⟨rfl, -⟩ | ⟨rfl, -⟩ | ⟨-, -, voids, habove, -⟩ := above_cases hp
  · exact hne rfl
  · rw [parent?_root] at hp
    cases hp
  · have hlength : (above path).length < (dropVoid (segments path)).length := by
      rw [above, List.length_dropLast]
      exact Nat.sub_lt (List.length_pos_iff.2 (dropVoid_ne_nil (segments_ne_nil path))) Nat.one_pos
    obtain ⟨voids', -, hpath⟩ := exists_dropVoid (segments path)
    have hle := congrArg List.length hpath
    have heq := congrArg List.length habove
    simp only [List.length_append] at hle heq
    omega

namespace Tree

abbrev origin (t : Tree) (path : String) : Place := if isAbsolute path then [] else t.here

/-- Directories are along these names, or can be made there. -/
structure Passable (t : Tree) (p : Place) (names : List String) : Prop where
  start : t.node? p = some .directory
  short : ∀ name ∈ names, name.utf8ByteSize ≤ longestName
  free : ∀ front, front <+: names → ∀ id bytes, t.node? (follow p front) ≠ some (.file id bytes)

variable {t t' : Tree} {p q : Place} {path dir name : String} {names front rest : List String}

theorem exists_walk_front (h : t.walk p (front ++ rest) = .ok (.found q .directory)) :
    ∃ d, t.walk p front = .ok (.found d .directory) := by
  induction rest using List.reverseRecOn generalizing q with
  | nil => exact ⟨q, by simpa using h⟩
  | append_singleton rest name ih =>
    rw [← List.append_assoc] at h
    cases hv : isVoid name with
    | true => exact ih (walk_of_void hv h).1
    | false =>
      obtain ⟨d, hd⟩ := walk_of_concat hv h
      exact ih hd

theorem node?_of_walk_front (h : t.walk p names = .ok (.found q .directory)) (hf : front <+: names) :
    t.node? (follow p front) = some .directory := by
  obtain ⟨rest, rfl⟩ := hf
  obtain ⟨d, hd⟩ := exists_walk_front h
  rw [follow_of_walk_found hd]
  exact node?_of_walk_found hd

theorem walk_of_all_void (hp : t.node? p = some .directory) (h : ∀ name ∈ names, isVoid name = true) :
    t.walk p names = .ok (.found p .directory) := by
  induction names with
  | nil => simp [walk, hp]
  | cons name names ih =>
    rw [walk, hp]
    simp only [h name List.mem_cons_self, if_true]
    exact ih fun name hn => h name (List.mem_cons_of_mem _ hn)

theorem follow_of_all_void (h : ∀ name ∈ names, isVoid name = true) (p : Place) : follow p names = p := by
  induction names with
  | nil => rfl
  | cons name names ih =>
    simp only [follow, h name List.mem_cons_self, if_true]
    exact ih fun name hn => h name (List.mem_cons_of_mem _ hn)

theorem short_of_walk {r : Located} (h : t.walk p [name] = .ok r) : name.utf8ByteSize ≤ longestName := by
  by_cases hv : isVoid name = true
  · obtain rfl | rfl : name = "" ∨ name = "." := by simpa [isVoid] using hv
    · decide
    · decide
  by_cases hup : name = ".."
  · subst hup
    decide
  rw [walk, node?_of_walk_cons h] at h
  simp only [hv, hup, if_false, Bool.false_eq_true] at h
  split at h
  · cases h
  next hlong => exact Nat.not_lt.1 hlong

theorem passable_iff : t.Passable p names ↔ t.node? p = some .directory ∧
    (∀ name ∈ names, name.utf8ByteSize ≤ longestName) ∧
      ∀ front ∈ names.inits, t.bytes? (follow p front) = none := by
  have hfree {q : Place} : (∀ id bytes, t.node? q ≠ some (.file id bytes)) ↔ t.bytes? q = none := by
    rw [bytes?]
    split <;> simp_all
  constructor
  · intro h
    exact ⟨h.start, h.short, fun front hf => hfree.1 (h.free front ((List.mem_inits ..).1 hf))⟩
  · rintro ⟨hstart, hshort, hf⟩
    exact ⟨hstart, hshort, fun front hp => hfree.2 (hf front ((List.mem_inits ..).2 hp))⟩

instance (t : Tree) (p : Place) (names : List String) : Decidable (t.Passable p names) :=
  decidable_of_iff' _ passable_iff

namespace Passable

theorem of_walk (h : t.walk p names = .ok (.found q .directory)) : t.Passable p names where
  start := node?_of_walk_directory h
  short name hn := by
    obtain ⟨before, after, rfl⟩ := List.append_of_mem hn
    obtain ⟨d, hd⟩ := exists_walk_front h
    rw [walk_append hd] at h
    obtain ⟨e, he⟩ := exists_walk_front (show t.walk d ([name] ++ after) = _ from h)
    exact short_of_walk he
  free front hf id bytes hfile := by
    rw [node?_of_walk_front h hf] at hfile
    cases hfile

theorem left (h : t.Passable p (front ++ rest)) : t.Passable p front where
  start := h.start
  short name hn := h.short name (List.mem_append_left _ hn)
  free f hf := h.free f (hf.trans (List.prefix_append ..))

theorem right (h : t.Passable p (front ++ rest)) (hw : t.walk p front = .ok (.found q .directory)) :
    t.Passable q rest where
  start := node?_of_walk_found hw
  short name hn := h.short name (List.mem_append_right _ hn)
  free f hf := by
    have hfree := h.free (front ++ f) ((List.prefix_append_right_inj front).2 hf)
    rwa [follow_append, follow_of_walk_found hw] at hfree

theorem grow (h : t.Passable p names) (hg : t.Grown t') : t'.Passable p names where
  start := hg.kept h.start
  short := h.short
  free front hf id bytes hfile := h.free front hf id bytes (hg.node?_file.1 hfile)

theorem ungrow (h : t'.Passable p names) (hg : t.Grown t') (hp : t.node? p = some .directory) :
    t.Passable p names where
  start := hp
  short := h.short
  free front hf id bytes hfile := h.free front hf id bytes (hg.kept hfile)

theorem walk_singleton_cases (ht : t.Sound) (h : t.Passable p [name]) :
    (∃ d, t.walk p [name] = .ok (.found d .directory)) ∨
      isVoid name = false ∧ name ≠ ".." ∧ t.node? (p ++ [name]) = none := by
  by_cases hv : isVoid name = true
  · exact .inl ⟨p, walk_of_all_void h.start (by simpa using hv)⟩
  by_cases hup : name = ".."
  · subst hup
    exact .inl ⟨p.dropLast, by simp [walk, h.start, ht.above h.start, isVoid]⟩
  have hlong : ¬ longestName < name.utf8ByteSize := Nat.not_lt.2 (h.short name List.mem_cons_self)
  have hfree := h.free [name] (List.prefix_refl _)
  simp only [follow, hv, hup, if_false, Bool.false_eq_true] at hfree
  rcases hn : t.node? (p ++ [name]) with _ | _ | ⟨id, bytes⟩
  · exact .inr ⟨by simpa using hv, hup, rfl⟩
  · exact .inl ⟨p ++ [name], by simp [walk, h.start, hv, hup, hlong, hn]⟩
  · exact absurd hn (hfree id bytes)

theorem walk_cases (ht : t.Sound) (h : t.Passable p names) :
    (∃ q, t.walk p names = .ok (.found q .directory)) ∨
      (∃ q slash, t.walk p names = .ok (.vacant q slash)) ∨ t.walk p names = .error .noEntry := by
  induction names generalizing p with
  | nil => exact .inl ⟨p, by simp [walk, h.start]⟩
  | cons name rest ih =>
    have hone : t.Passable p ([name] ++ rest) := h
    obtain ⟨d, hw⟩ | ⟨hv, hup, hn⟩ := hone.left.walk_singleton_cases ht
    · have hrest := ih (hone.right hw)
      rwa [← walk_append hw, List.singleton_append] at hrest
    · have hlong : ¬ longestName < name.utf8ByteSize := Nat.not_lt.2 (h.short name List.mem_cons_self)
      by_cases hall : rest.all (· = "")
      · exact .inr (.inl ⟨p ++ [name], !rest.isEmpty, by simp [walk, h.start, hv, hup, hlong, hn, hall]⟩)
      · exact .inr (.inr (by simp [walk, h.start, hv, hup, hlong, hn, hall]))

theorem walk_singleton_ne (ht : t.Sound) (h : t.Passable p [name]) :
    t.walk p [name] ≠ .error .noEntry := by
  obtain ⟨d, hw⟩ | ⟨hv, hup, hn⟩ := h.walk_singleton_cases ht
  · simp [hw]
  · have hlong : ¬ longestName < name.utf8ByteSize := Nat.not_lt.2 (h.short name List.mem_cons_self)
    simp [walk, h.start, hv, hup, hlong, hn]

end Passable

theorem locate_of_spelled (hne : path ≠ "") (hnul : '\x00' ∉ path.toList)
    (hsize : path.utf8ByteSize ≤ longestPath) : t.locate path = t.walk (t.origin path) (segments path) := by
  rw [locate, if_neg (by simpa using hnul), if_neg (by simpa using hne), if_neg (Nat.not_lt.2 hsize)]

theorem spelled_of_locate {r : Located} (h : t.locate path = .ok r) :
    '\x00' ∉ path.toList ∧ path.utf8ByteSize ≤ longestPath := by
  rw [locate] at h
  split at h
  · cases h
  next hnul =>
  split at h
  · cases h
  split at h
  · cases h
  next hlong => exact ⟨by simpa using hnul, Nat.not_lt.1 hlong⟩

theorem start_of_locate {r : Located} (h : t.locate path = .ok r) :
    t.node? (t.origin path) = some .directory := by
  rw [locate_eq_walk h] at h
  obtain ⟨name, names, hpath⟩ := List.exists_cons_of_ne_nil (segments_ne_nil path)
  rw [hpath] at h
  exact node?_of_walk_cons h

theorem origin_of_parent? (hp : parent? path = some dir) (hne : dir ≠ "") : t.origin dir = t.origin path := by
  obtain ⟨more, rfl⟩ := exists_append_of_parent? hp hne
  rw [origin, origin, isAbsolute_append hne]

theorem exists_walk_above (hp : parent? path = some dir)
    (hstart : t.node? (t.origin path) = some .directory) (hdir : dir = "" ∨ t.isDirectory dir = true) :
    ∃ d, t.walk (t.origin path) (above path) = .ok (.found d .directory) := by
  obtain ⟨-, hnil⟩ | ⟨-, hvoid⟩ | ⟨hne, -, voids, habove, hvoids⟩ := above_cases hp
  · exact ⟨_, by rw [hnil, walk, hstart]⟩
  · exact ⟨_, walk_of_all_void hstart hvoid⟩
  · obtain ⟨d, hd⟩ := isDirectory_iff.1 (hdir.resolve_left hne)
    rw [locate_eq_walk hd] at hd
    rw [← origin_of_parent? hp hne, habove, walk_append hd]
    exact ⟨d, walk_of_all_void (node?_of_walk_found hd) hvoids⟩

/-! Making directories. -/

/-- A directory is at a path, or can be made there after those above it. -/
structure Layable (t : Tree) (path : String) : Prop where
  trimmed : path = "/" ∨ dropVoid (segments path) = segments path
  nonempty : path ≠ ""
  noNul : '\x00' ∉ path.toList
  size : path.utf8ByteSize ≤ longestPath
  way : t.Passable (t.origin path) (segments path)

namespace Layable

theorem grow (h : t.Layable path) (hg : t.Grown t') : t'.Layable path where
  trimmed := h.trimmed
  nonempty := h.nonempty
  noNul := h.noNul
  size := h.size
  way := by
    rw [origin, hg.here_eq]
    exact h.way.grow hg

theorem of_parent? (hp : parent? path = some dir) (hne : dir ≠ "") (hnul : '\x00' ∉ path.toList)
    (hsize : path.utf8ByteSize ≤ longestPath) (hway : t.Passable (t.origin path) (above path)) :
    t.Layable dir := by
  obtain ⟨rfl, -⟩ | ⟨rfl, -⟩ | ⟨-, htrimmed, voids, habove, -⟩ := above_cases hp
  · exact absurd rfl hne
  · have hroot : t.walk [] ["", ""] = .ok (.found [] .directory) := walk_of_all_void rfl (by decide)
    exact ⟨.inl rfl, by decide, by decide, by decide, .of_walk hroot⟩
  · obtain ⟨more, hmore⟩ := exists_append_of_parent? hp hne
    refine ⟨.inr htrimmed, hne, fun hmem => hnul ?_, ?_, ?_⟩
    · rw [hmore, String.toList_append]
      exact List.mem_append_left _ hmem
    · rw [hmore, String.utf8ByteSize_append] at hsize
      omega
    · rw [habove] at hway
      rw [origin_of_parent? hp hne]
      exact hway.left

theorem parent (h : t.Layable path) (hp : parent? path = some dir) (hne : dir ≠ "") : t.Layable dir := by
  obtain ⟨rest, hrest⟩ := above_prefix_segments path
  have hway := h.way
  rw [← hrest] at hway
  exact of_parent? hp hne h.noNul h.size hway.left

theorem locate_eq (h : t.Layable path) : t.locate path = t.walk (t.origin path) (segments path) :=
  locate_of_spelled h.nonempty h.noNul h.size

theorem locate_ne (ht : t.Sound) (h : t.Layable path)
    (hdir : ∀ dir, parent? path = some dir → dir = "" ∨ t.isDirectory dir = true) :
    t.locate path ≠ .error .noEntry := by
  rw [h.locate_eq]
  cases hp : parent? path with
  | none =>
    obtain ⟨voids, hvoids, hpath⟩ := exists_dropVoid (segments path)
    rw [dropVoid_of_no_parent hp] at hpath
    have hvoid : ∀ name ∈ segments path, isVoid name = true := by
      rw [hpath]
      simpa [isVoid] using hvoids
    simp [walk_of_all_void h.way.start hvoid]
  | some dir =>
    have htrimmed : dropVoid (segments path) = segments path := by
      refine h.trimmed.resolve_left ?_
      rintro rfl
      rw [parent?_root] at hp
      cases hp
    have hpath : segments path = above path ++ [(segments path).getLast (segments_ne_nil path)] := by
      rw [above, htrimmed, List.dropLast_append_getLast]
    obtain ⟨d, hd⟩ := exists_walk_above hp h.way.start (hdir dir hp)
    have hway := h.way
    rw [hpath] at hway ⊢
    rw [walk_append hd]
    exact (hway.right hd).walk_singleton_ne ht

theorem ensureDirectory_cases (ht : t.Sound) (h : t.Layable path) :
    (∃ made, t.ensureDirectory path = .ok made) ∨
      t.ensureDirectory path = .error .noEntry ∧ t.locate path = .error .noEntry := by
  have hlocate := h.locate_eq
  obtain ⟨q, hw⟩ | ⟨q, slash, hw⟩ | hw := h.way.walk_cases ht <;> rw [← hlocate] at hw
  · have hmake : t.makeDirectory path = .error .alreadyExists := by rw [makeDirectory, hw]; rfl
    have hdir : t.isDirectory path = true := isDirectory_iff.2 ⟨q, hw⟩
    exact .inl ⟨t, by rw [ensureDirectory, hmake]; simp [hdir]⟩
  · have hmake : t.makeDirectory path = .ok (t.set q .directory) := by rw [makeDirectory, hw]; rfl
    exact .inl ⟨_, by rw [ensureDirectory, hmake]⟩
  · have hmake : t.makeDirectory path = .error .noEntry := by rw [makeDirectory, hw]; rfl
    have hdir : t.isDirectory path = false := by simp [isDirectory, hw]
    exact .inr ⟨by rw [ensureDirectory, hmake]; simp [hdir], hw⟩

end Layable

theorem layDirectoriesWith_ok {fuel : Nat} (ht : t.Sound) (h : path = "" ∨ t.Layable path)
    (hfuel : path.length < fuel) : (t.layDirectoriesWith path fuel).1 = .ok () := by
  induction fuel generalizing path with
  | zero => omega
  | succ fuel ih =>
    by_cases hne : path = ""
    · simp [hne, layDirectoriesWith]
    have hl := h.resolve_left hne
    have hempty : path.isEmpty = false := by simpa using hne
    simp only [layDirectoriesWith, hempty, Bool.false_eq_true, if_false]
    obtain ⟨made, hmade⟩ | ⟨hfault, hmissing⟩ := hl.ensureDirectory_cases ht
    · rw [hmade]
    rw [hfault]
    cases hp : parent? path with
    | none => exact absurd hmissing (hl.locate_ne ht (by simp [hp]))
    | some dir =>
      have hlayable : dir = "" ∨ t.Layable dir := or_iff_not_imp_left.2 (hl.parent hp)
      have hlaid := ih hlayable (by have := length_of_parent? hp hne; omega)
      obtain ⟨made, hr⟩ : ∃ made, t.layDirectoriesWith dir fuel = (.ok (), made) := ⟨_, Prod.ext hlaid rfl⟩
      have hgrown : t.Grown made := by simpa [hr] using grown_layDirectoriesWith t dir fuel
      -- what was missing is there now, so that the second attempt succeeds
      have hnext := hl.grow hgrown
      have hdir : ∀ above, parent? path = some above → above = "" ∨ made.isDirectory above = true := by
        intro above habove
        obtain rfl : dir = above := Option.some.inj (hp.symm.trans habove)
        exact or_iff_not_imp_left.2 fun hne' => isDirectory_of_layDirectoriesWith hne' hr
      obtain ⟨made', hmade'⟩ | ⟨-, hmissing'⟩ := hnext.ensureDirectory_cases (hgrown.sound ht)
      · simp [hr, hmade', attempt]
      · exact absurd hmissing' (hnext.locate_ne (hgrown.sound ht) hdir)

theorem start_of_ensureDirectory (h : t.ensureDirectory path = .ok t') :
    t.node? (t.origin path) = some .directory := by
  rw [ensureDirectory] at h
  split at h
  next hmake =>
    rcases hl : t.locate path with e | r
    · rw [makeDirectory, hl] at hmake
      cases hmake
    · exact start_of_locate hl
  next =>
    split at h
    next hdir =>
      obtain ⟨q, hq⟩ := isDirectory_iff.1 hdir
      exact start_of_locate hq
    next => cases h

theorem start_of_layDirectoriesWith {fuel : Nat} (hne : path ≠ "")
    (h : (t.layDirectoriesWith path fuel).1 = .ok ()) : t.node? (t.origin path) = some .directory := by
  induction fuel generalizing path with
  | zero => cases h
  | succ fuel ih =>
    have hempty : path.isEmpty = false := by simpa using hne
    simp only [layDirectoriesWith, hempty, Bool.false_eq_true, if_false] at h
    split at h
    next made hmade => exact start_of_ensureDirectory hmade
    next =>
      split at h
      next => cases h
      next dir hp =>
        split at h
        next made hlaid =>
          by_cases hdir : dir = ""
          · obtain rfl : t = made := by
              subst hdir
              cases fuel <;> simp_all [layDirectoriesWith]
            rcases hmade : t.ensureDirectory path with e | made'
            · rw [hmade] at h
              cases h
            · exact start_of_ensureDirectory hmade
          · rw [← origin_of_parent? hp hdir]
            exact ih hdir (by rw [hlaid])
        next => cases h
    next => cases h

theorem place_of_ensureDirectory (h : t.ensureDirectory path = .ok t') (hq : t.node? q = none)
    (hq' : t'.node? q ≠ none) : t.place path = q := by
  rw [ensureDirectory] at h
  split at h
  next made hmake =>
    cases h
    rcases hl : t.locate path with e | (⟨r, m⟩ | ⟨r, slash⟩) <;> rw [makeDirectory, hl] at hmake
    · cases hmake
    · cases hmake
    · obtain rfl : t.set r .directory = t' := Except.ok.inj hmake
      have hne : r ≠ [] := by
        rintro rfl
        cases node?_of_vacant hl
      rw [node?_set t r q hne] at hq'
      split at hq'
      next hqr => exact hqr ▸ (place_of_vacant hl).1
      next => exact absurd hq hq'
  next =>
    split at h
    next =>
      cases h
      exact absurd hq hq'
    next => cases h

theorem exists_way_of_parent? (hp : parent? path = some dir) (hne : dir ≠ "")
    (hf : front <+: segments dir) :
    ∃ front', front' <+: above path ∧ follow (t.origin path) front' = follow (t.origin dir) front := by
  rw [origin_of_parent? hp hne]
  obtain ⟨rfl, -⟩ | ⟨rfl, -⟩ | ⟨-, -, voids, habove, -⟩ := above_cases hp
  · exact absurd rfl hne
  · have hvoid : ∀ name ∈ front, isVoid name = true := by
      have hroot : ∀ name ∈ segments "/", isVoid name = true := by decide
      exact fun name hn => hroot name (hf.subset hn)
    exact ⟨[], List.nil_prefix, (follow_of_all_void hvoid _).symm⟩
  · exact ⟨front, hf.trans ⟨voids, habove.symm⟩, rfl⟩

theorem exists_way {fuel : Nat} (hq : t.node? q = none)
    (hq' : (t.layDirectoriesWith path fuel).2.node? q ≠ none) :
    ∃ front, front <+: segments path ∧ follow (t.origin path) front = q := by
  have hparent {path dir : String} {fuel : Nat} (hp : parent? path = some dir)
      (hdir : (t.layDirectoriesWith dir fuel).2.node? q ≠ none)
      (ih : ∃ front, front <+: segments dir ∧ follow (t.origin dir) front = q) :
      ∃ front, front <+: segments path ∧ follow (t.origin path) front = q := by
    by_cases hne : dir = ""
    · subst hne
      cases fuel <;> simp [layDirectoriesWith, hq] at hdir
    obtain ⟨front, hf, rfl⟩ := ih
    obtain ⟨front', hf', heq⟩ := exists_way_of_parent? (t := t) hp hne hf
    exact ⟨front', hf'.trans (above_prefix_segments path), heq⟩
  fun_induction layDirectoriesWith t path fuel with
  | case3 path fuel hne made hmade =>
    exact ⟨_, List.prefix_refl _, place_of_ensureDirectory hmade hq hq'⟩
  | case5 path fuel hne hmade dir hp made hlaid ih =>
    rw [hlaid] at ih
    by_cases hmid : made.node? q = none
    · have hgrown : t.Grown made := by simpa [hlaid] using grown_layDirectoriesWith t dir fuel
      rcases hagain : made.ensureDirectory path with e | made'
      · rw [hagain] at hq'
        exact absurd hmid hq'
      · rw [hagain] at hq'
        have hplace := place_of_ensureDirectory hagain hmid hq'
        rw [place, hgrown.here_eq] at hplace
        exact ⟨_, List.prefix_refl _, hplace⟩
    · exact hparent hp (by rwa [hlaid]) (ih hmid)
  | case6 path fuel hne hmade dir hp e made hlaid ih =>
    rw [hlaid] at ih
    exact hparent hp (by rwa [hlaid]) (ih hq')
  | _ => exact absurd hq hq'

/-- A directory is at the place, or comes to be there as those above a path are made. -/
def Laid (t : Tree) (path : String) (q : Place) : Prop :=
  t.node? q = some .directory ∨ ∃ front, front <+: above path ∧ follow (t.origin path) front = q

instance (t : Tree) (path : String) (q : Place) : Decidable (t.Laid path q) :=
  decidable_of_iff (t.node? q = some .directory ∨ ∃ front ∈ (above path).inits, follow (t.origin path) front = q)
    (by simp only [Laid, List.mem_inits])

theorem laid_iff_of_above_eq_nil (h : above path = []) (hstart : t.node? (t.origin path) = some .directory) :
    t.Laid path q ↔ t.node? q = some .directory := by
  refine ⟨?_, .inl⟩
  rintro (hq | ⟨front, hf, rfl⟩)
  · exact hq
  · rw [h, List.prefix_nil] at hf
    rwa [hf]

theorem laid_iff_of_layDirectories (hp : parent? path = some dir) (hne : dir ≠ "")
    (h : t.layDirectories dir = (.ok (), t')) : t.Laid path q ↔ t'.node? q = some .directory := by
  have hgrown : t.Grown t' := by simpa [h] using grown_layDirectories t dir
  have hstart : t.node? (t.origin path) = some .directory := by
    rw [← origin_of_parent? hp hne]
    exact start_of_layDirectoriesWith hne (congrArg Prod.fst h)
  constructor
  · rintro (hq | ⟨front, hf, rfl⟩)
    · exact hgrown.kept hq
    · have hstart' := hgrown.kept hstart
      rw [origin, ← hgrown.here_eq] at hstart' ⊢
      obtain ⟨d, hd⟩ := exists_walk_above hp hstart' (.inr (isDirectory_of_layDirectories hne h))
      exact node?_of_walk_front hd hf
  · intro hq
    cases hold : t.node? q with
    | some n =>
      obtain rfl : n = .directory := Option.some.inj ((hgrown.kept hold).symm.trans hq)
      exact .inl hold
    | none =>
      obtain ⟨front, hf, rfl⟩ := exists_way hold (by rw [← layDirectories, h, hq]; simp)
      obtain ⟨front', hf', heq⟩ := exists_way_of_parent? (t := t) hp hne hf
      exact .inr ⟨front', hf', heq⟩

/-! A file in its directory. -/

theorem walk_home (ht : t.Sound) (hway : t.Passable (t.origin path) (segments path).dropLast)
    (habove : ∃ d, t.walk (t.origin path) (above path) = .ok (.found d .directory))
    (hhome : t.node? (t.home path) = some .directory) :
    t.walk (t.origin path) (segments path).dropLast = .ok (.found (t.home path) .directory) := by
  suffices h : ∃ d, t.walk (t.origin path) (segments path).dropLast = .ok (.found d .directory) by
    obtain ⟨d, hd⟩ := h
    rw [hd, home, follow_of_walk_found hd]
  obtain ⟨d, hd⟩ := habove
  obtain ⟨voids, hvoids, hpath⟩ := exists_dropVoid (segments path)
  have hkept : above path ++ [_] = dropVoid (segments path) :=
    List.dropLast_append_getLast (dropVoid_ne_nil (segments_ne_nil path))
  cases voids using List.reverseRecOn with
  | nil =>
    have hsame : (segments path).dropLast = above path := by rw [hpath, List.append_nil]; rfl
    exact ⟨d, hsame ▸ hd⟩
  | append_singleton voids void =>
    rw [← List.append_assoc, ← hkept, List.append_assoc (above path)] at hpath
    have hsame := congrArg List.dropLast hpath
    rw [List.dropLast_concat] at hsame
    rw [home, hsame, follow_append, follow_of_walk_found hd, follow_append] at hhome
    rw [hsame] at hway ⊢
    rw [walk_append hd]
    have hone := (hway.right hd).left
    have hvoid : ∀ name ∈ voids, isVoid name = true := fun name hn => hvoids name (by simp [hn])
    obtain ⟨e, he⟩ | ⟨hv, hup, hnone⟩ := hone.walk_singleton_cases ht
    · exact ⟨e, by rw [walk_append he]; exact walk_of_all_void (node?_of_walk_found he) hvoid⟩
    · rw [follow_of_all_void hvoid] at hhome
      simp [follow, hv, hup, hnone] at hhome

theorem Reaches.place_eq (h : t.Reaches path q) : t.place path = q := by
  cases h with
  | file h => exact place_of_found h
  | vacant h => exact (place_of_vacant h).1

section

variable {suffix : String} (hs : IsSuffix suffix)

include hs

theorem sidecar_ne_empty : sidecar path suffix ≠ "" := by
  intro hempty
  have hlong := hs.long
  have hlength := congrArg String.length hempty
  simp only [sidecar, String.length_append, String.length_empty] at hlength
  omega

theorem walk_sidecar (hhome : t.walk (t.origin path) (segments path).dropLast =
    .ok (.found (t.home path) .directory)) :
    t.walk (t.origin (sidecar path suffix)) (segments (sidecar path suffix)) =
      t.walk (t.home path) [lastName path ++ "." ++ suffix] := by
  obtain ⟨front, last, hpath, hsidecar⟩ := exists_segments path
  have hlast : lastName path = last := by simp [lastName, hpath]
  rw [hpath, List.dropLast_concat] at hhome
  rw [origin, isAbsolute_sidecar, hsidecar suffix hs.noSlash, walk_append hhome, hlast]

theorem reaches_sidecar_iff : t.Reaches (sidecar path suffix) (t.place (sidecar path suffix)) ↔
    '\x00' ∉ (sidecar path suffix).toList ∧ (sidecar path suffix).utf8ByteSize ≤ longestPath ∧
      (lastName path ++ "." ++ suffix).utf8ByteSize ≤ longestName ∧
      t.walk (t.origin path) (segments path).dropLast = .ok (.found (t.home path) .directory) ∧
      t.node? (t.place (sidecar path suffix)) ≠ some .directory := by
  constructor
  · intro h
    obtain ⟨r, hr⟩ : ∃ r, t.locate (sidecar path suffix) = .ok r := by
      cases h with
      | file h => exact ⟨_, h⟩
      | vacant h => exact ⟨_, h⟩
    obtain ⟨hnul, hsize⟩ := spelled_of_locate hr
    obtain ⟨front, name, d, hd⟩ := exists_home hs hr
    have hhome : t.walk (t.origin path) (segments path).dropLast = .ok (.found (t.home path) .directory) := by
      rw [home, hd.segments_eq, List.dropLast_concat, follow_of_walk_found hd.walk_eq]
      exact hd.walk_eq
    rw [locate_of_spelled (sidecar_ne_empty hs) hnul hsize, walk_sidecar hs hhome] at hr
    exact ⟨hnul, hsize, short_of_walk hr, hhome, h.node?_ne⟩
  · rintro ⟨hnul, hsize, hshort, hhome, hfree⟩
    have hlocate : t.locate (sidecar path suffix) =
        t.walk (t.home path) [lastName path ++ "." ++ suffix] := by
      rw [locate_of_spelled (sidecar_ne_empty hs) hnul hsize, walk_sidecar hs hhome]
    have hv := hs.isVoid_eq (lastName path)
    have hup : lastName path ++ "." ++ suffix ≠ ".." := hs.ne_of_short _ (by decide)
    rw [place_sidecar hs] at hfree ⊢
    generalize lastName path ++ "." ++ suffix = name at *
    have hlong : ¬ longestName < name.utf8ByteSize := Nat.not_lt.2 hshort
    rcases hn : t.node? (t.home path ++ [name]) with _ | _ | ⟨id, bytes⟩
    · exact .vacant (by rw [hlocate]; simp [walk, node?_of_walk_found hhome, hv, hup, hlong, hn])
    · exact absurd hn hfree
    · have hfound : t.locate (sidecar path suffix) =
          .ok (.found (t.home path ++ [name]) (.file id bytes)) := by
        rw [hlocate]
        simp [walk, node?_of_walk_found hhome, hv, hup, hlong, hn]
      exact .file hfound

theorem locate_of_named (hn : Named path) (h : t.Reaches (sidecar path suffix) q) : t.locate path =
    match t.node? (t.place path) with
    | some n => .ok (.found (t.place path) n)
    | none => .ok (.vacant (t.place path) false) := by
  rw [← h.place_eq] at h
  obtain ⟨hnul, hsize, hshort, hhome, -⟩ := (reaches_sidecar_iff hs).1 h
  obtain ⟨front, last, hpath, -⟩ := exists_segments path
  have hlast : lastName path = last := by simp [lastName, hpath]
  obtain ⟨hv, hup⟩ := hn
  have hne : path ≠ "" := by
    rintro rfl
    exact absurd hv (by decide)
  have hlocate : t.locate path = t.walk (t.home path) [lastName path] := by
    simp only [sidecar, String.toList_append, List.mem_append, not_or, String.utf8ByteSize_append] at hnul hsize
    rw [locate_of_spelled hne hnul.1.1 (by omega), hpath, hlast]
    rw [hpath, List.dropLast_concat] at hhome
    exact walk_append hhome [last]
  have hlong : ¬ longestName < (lastName path).utf8ByteSize := by
    simp only [String.utf8ByteSize_append] at hshort
    omega
  rw [hlocate, place_of_named ⟨hv, hup⟩]
  rcases hnode : t.node? (t.home path ++ [lastName path]) with _ | n <;>
    simp [walk, node?_of_walk_found hhome, hv, hup, hlong, hnode]

end

theorem Reaches.exists_openFile (h : t.Reaches path q) :
    ∃ id bytes t', t.openFile path = .ok (q, id, bytes, t') := by
  cases h with
  | file h => exact ⟨_, _, _, by rw [openFile, h]; rfl⟩
  | vacant h => exact ⟨_, _, _, by rw [openFile, h]; rfl⟩

end Tree

end PushKeeper.Files
