import PushKeeper.Proofs.Files.Beside

namespace PushKeeper.Files

def follow (p : Place) : List String → Place
  | [] => p
  | name :: rest =>
    if isVoid name then follow p rest
    else if name = ".." then follow p.dropLast rest
    else follow (p ++ [name]) rest

theorem follow_append (p : Place) (names rest : List String) :
    follow p (names ++ rest) = follow (follow p names) rest := by
  fun_induction follow p names with
  | case1 p => rfl
  | case2 p name names hv ih => simp [follow, hv, ih]
  | case3 p names hv ih => simp [follow, hv, ih]
  | case4 p name names hv hup ih => simp [follow, hv, hup, ih]

theorem follow_of_all_empty {names : List String} (h : names.all (· = "")) (p : Place) :
    follow p names = p := by
  induction names with
  | nil => rfl
  | cons name names ih =>
    obtain ⟨rfl, hrest⟩ : name = "" ∧ names.all (· = "") := by simpa using h
    exact ih hrest

def lastName (path : String) : String :=
  (segments path).getLastD ""

/-- The last name of a path is a name of its own, neither nothing nor a way to another directory. -/
def Named (path : String) : Prop :=
  isVoid (lastName path) = false ∧ lastName path ≠ ".."

instance (path : String) : Decidable (Named path) := inferInstanceAs (Decidable (_ ∧ _))

namespace Tree

/-- The place that a path names. -/
def place (t : Tree) (path : String) : Place :=
  follow (if isAbsolute path then [] else t.here) (segments path)

/-- The place of the directory that a path is in. -/
def home (t : Tree) (path : String) : Place :=
  follow (if isAbsolute path then [] else t.here) (segments path).dropLast

variable {t t' : Tree} {p q : Place} {path suffix : String} {names : List String}

theorem place_congr (h : t'.here = t.here) (path : String) : t'.place path = t.place path := by
  rw [place, place, h]

theorem place_of_named (h : Named path) : t.place path = t.home path ++ [lastName path] := by
  obtain ⟨front, last, hpath, -⟩ := exists_segments path
  obtain ⟨hv, hup⟩ := h
  simp only [lastName, hpath, List.getLastD_concat] at hv hup
  simp [place, home, lastName, hpath, follow_append, follow, hv, hup]

theorem place_sidecar (hs : IsSuffix suffix) :
    t.place (sidecar path suffix) = t.home path ++ [lastName path ++ "." ++ suffix] := by
  obtain ⟨front, last, hpath, hsidecar⟩ := exists_segments path
  simp [place, home, lastName, hpath, hsidecar suffix hs.noSlash, isAbsolute_sidecar, follow_append,
    follow, hs.isVoid_eq, hs.ne_of_short last (s := "..") (by decide)]

theorem place_ne_sidecar (t : Tree) (path : String) (hs : IsSuffix suffix) :
    t.place path ≠ t.place (sidecar path suffix) := by
  by_cases hn : Named path
  · rw [place_of_named hn, place_sidecar hs]
    simpa using ne_sidecarName (lastName path) suffix
  · obtain ⟨front, last, hpath, -⟩ := exists_segments path
    have hlast : lastName path = last := by simp [lastName, hpath]
    have hcases : t.place path = t.home path ∨ t.place path = (t.home path).dropLast := by
      by_cases hv : isVoid last = true
      · exact .inl (by simp [place, home, hpath, follow_append, follow, hv])
      · obtain rfl : last = ".." := Decidable.byContradiction fun hup =>
          hn ⟨by simpa [hlast] using hv, by simpa [hlast] using hup⟩
        exact .inr (by simp [place, home, hpath, follow_append, follow, hv])
    intro h
    have hlen := congrArg List.length h
    rw [place_sidecar hs] at hlen
    obtain hp | hp := hcases <;> rw [hp] at hlen <;> simp at hlen

theorem place_sidecar_eq_iff (hs : IsSuffix suffix) {other : String} :
    t.place (sidecar path suffix) = t.place (sidecar other suffix) ↔
      t.home path = t.home other ∧ lastName path = lastName other := by
  simp [place_sidecar hs]

theorem follow_of_walk_found {n : Node} (h : t.walk p names = .ok (.found q n)) : follow p names = q := by
  fun_induction walk t p names with
  | case1 p m hm =>
    obtain ⟨rfl, -⟩ : p = q ∧ m = n := by simpa using h
    rfl
  | case5 p name rest hp hv ih => simpa [follow, hv] using ih h
  | case6 p rest hp hv ih => simpa [follow, isVoid] using ih h
  | case8 p name rest hp hv hup hlong hs ih => simpa [follow, hv, hup] using ih h
  | _ => simp_all

theorem follow_of_walk_vacant {slash : Bool} (h : t.walk p names = .ok (.vacant q slash)) :
    follow p names = q ∧ t.node? q.dropLast = some .directory := by
  fun_induction walk t p names with
  | case5 p name rest hp hv ih => simpa [follow, hv] using ih h
  | case6 p rest hp hv ih => simpa [follow, isVoid] using ih h
  | case8 p name rest hp hv hup hlong hs ih => simpa [follow, hv, hup] using ih h
  | case9 p name rest hp hv hup hlong hs hall =>
    obtain ⟨rfl, -⟩ : p ++ [name] = q ∧ (!rest.isEmpty) = slash := by simpa using h
    simp [follow, hv, hup, follow_of_all_empty hall, hp]
  | _ => simp_all

theorem place_of_found {n : Node} (h : t.locate path = .ok (.found q n)) : t.place path = q := by
  rw [locate_eq_walk h] at h
  exact follow_of_walk_found h

theorem place_of_vacant {slash : Bool} (h : t.locate path = .ok (.vacant q slash)) :
    t.place path = q ∧ t.node? q.dropLast = some .directory := by
  rw [locate_eq_walk h] at h
  exact follow_of_walk_vacant h

def bytes? (t : Tree) (p : Place) : Option ByteArray :=
  match t.node? p with
  | some (.file _ bytes) => some bytes
  | _ => none

theorem bytes?_congr (h : t'.node? p = t.node? p) : t'.bytes? p = t.bytes? p := by
  rw [bytes?, bytes?, h]

def IsLock (p : Place) : Prop := ∃ home name, p = home ++ [name ++ "." ++ "lock"]

theorem isLock_place (t : Tree) (path : String) : IsLock (t.place (sidecar path "lock")) :=
  ⟨_, _, place_sidecar isSuffix_lock⟩

/-- What an operating system keeps of a tree: what stands somewhere stands in a directory, and new files get new
identities. A file may have several places, but a lock file, which is as it was made, has only its own. -/
structure Sound (t : Tree) : Prop where
  above {p : Place} {n : Node} : t.node? p = some n → t.node? p.dropLast = some .directory
  unique {p q : Place} {id : Nat} {b c : ByteArray} : IsLock p →
    t.node? p = some (.file id b) → t.node? q = some (.file id c) → p = q
  known {p : Place} {id : Nat} {b : ByteArray} : t.node? p = some (.file id b) → id < t.fresh

theorem locate_of_sidecar (hne : path ≠ "") {r : Located} (h : t.locate (sidecar path suffix) = .ok r) :
    t.locate path = t.walk (if isAbsolute path then [] else t.here) (segments path) := by
  rw [sidecar, String.append_assoc] at h
  exact locate_of_append hne h

theorem exists_directory_of_not_named (ht : t.Sound) (hs : IsSuffix suffix) (hne : path ≠ "")
    (hn : ¬ Named path) {r : Located} (h : t.locate (sidecar path suffix) = .ok r) :
    ∃ q, t.locate path = .ok (.found q .directory) := by
  obtain ⟨front, name, d, hd⟩ := exists_home hs h
  have hlast : lastName path = name := by simp [lastName, hd.segments_eq]
  have hwalk : t.locate path = t.walk d [name] := by
    rw [locate_of_sidecar hne h, hd.segments_eq, walk_append hd.walk_eq]
  rw [hwalk]
  by_cases hv : isVoid name = true
  · exact ⟨d, by simp [walk, hd.node?_eq, hv]⟩
  · obtain rfl : name = ".." := Decidable.byContradiction fun hup =>
      hn ⟨by simpa [hlast] using hv, by simpa [hlast] using hup⟩
    exact ⟨d.dropLast, by simp [walk, hd.node?_eq, hv, ht.above hd.node?_eq]⟩

structure Grown (t t' : Tree) : Prop where
  here_eq : t'.here = t.here
  fresh_eq : t'.fresh = t.fresh
  kept {p : Place} {n : Node} : t.node? p = some n → t'.node? p = some n
  new {p : Place} {n : Node} : t.node? p = none → t'.node? p = some n →
    n = .directory ∧ t'.node? p.dropLast = some .directory

namespace Grown

theorem refl (t : Tree) : t.Grown t := ⟨rfl, rfl, id, fun h hn => by simp [h] at hn⟩

theorem trans {t'' : Tree} (h : t.Grown t') (h' : t'.Grown t'') : t.Grown t'' where
  here_eq := h'.here_eq.trans h.here_eq
  fresh_eq := h'.fresh_eq.trans h.fresh_eq
  kept hp := h'.kept (h.kept hp)
  new {p n} hp hn := by
    cases hmid : t'.node? p with
    | none => exact h'.new hmid hn
    | some m =>
      obtain ⟨hm, hup⟩ := h.new hp hmid
      exact ⟨Option.some.inj (hn.symm.trans (h'.kept hmid)) ▸ hm, h'.kept hup⟩

theorem node?_file (h : t.Grown t') {id : Nat} {b : ByteArray} :
    t'.node? p = some (.file id b) ↔ t.node? p = some (.file id b) := by
  refine ⟨fun hp => ?_, h.kept⟩
  cases hold : t.node? p with
  | none => cases (h.new hold hp).1
  | some n => rw [← hp, h.kept hold]

theorem bytes?_eq (h : t.Grown t') (p : Place) : t'.bytes? p = t.bytes? p := by
  cases hold : t.node? p with
  | some n => exact bytes?_congr (by rw [hold, h.kept hold])
  | none =>
    cases hnew : t'.node? p with
    | none => exact bytes?_congr (by rw [hold, hnew])
    | some n =>
      obtain ⟨rfl, -⟩ := h.new hold hnew
      rw [bytes?, bytes?, hold, hnew]

theorem sound (h : t.Grown t') (ht : t.Sound) : t'.Sound where
  above {p n} hp := by
    cases hold : t.node? p with
    | none => exact (h.new hold hp).2
    | some m => exact h.kept (ht.above hold)
  unique hl hp hq := ht.unique hl (h.node?_file.1 hp) (h.node?_file.1 hq)
  known hp := h.fresh_eq ▸ ht.known (h.node?_file.1 hp)

end Grown

theorem grown_makeDirectory (h : t.makeDirectory path = .ok t') : t.Grown t' := by
  rcases hl : t.locate path with e | (⟨q, n⟩ | ⟨q, slash⟩) <;> rw [makeDirectory, hl] at h
  · cases h
  · cases h
  · obtain rfl : t.set q .directory = t' := Except.ok.inj h
    have hnone := node?_of_vacant hl
    have hne : q ≠ [] := by rintro rfl; cases hnone
    obtain ⟨-, hup⟩ := place_of_vacant hl
    have hkept : ∀ {p n}, t.node? p = some n → (t.set q .directory).node? p = some n := by
      intro p n hp
      rw [node?_set t q p hne, if_neg, hp]
      rintro rfl
      simp [hnone] at hp
    refine ⟨rfl, rfl, hkept, fun {p n} hp hn => ?_⟩
    rw [node?_set t q p hne] at hn
    split at hn
    next hpq =>
      subst hpq
      exact ⟨(Option.some.inj hn).symm, hkept hup⟩
    next => simp [hp] at hn

theorem grown_ensureDirectory (h : t.ensureDirectory path = .ok t') : t.Grown t' := by
  unfold ensureDirectory at h
  split at h
  next made hmade =>
    cases h
    exact grown_makeDirectory hmade
  next =>
    split at h
    next => cases h; exact .refl _
    next => cases h

theorem grown_attempt {result : Except Fault Tree} (h : ∀ t', result = .ok t' → t.Grown t') :
    t.Grown (t.attempt result).2 := by
  cases result with
  | error e => exact .refl t
  | ok t' => exact h t' rfl

theorem grown_layDirectoriesWith (t : Tree) (path : String) (fuel : Nat) :
    t.Grown (t.layDirectoriesWith path fuel).2 := by
  fun_induction layDirectoriesWith t path fuel with
  | case3 path fuel hne made hmade => exact grown_ensureDirectory hmade
  | case5 path fuel hne hmade above hparent made hlaid ih =>
    rw [hlaid] at ih
    exact ih.trans (grown_attempt fun _ => grown_ensureDirectory)
  | case6 path fuel hne hmade above hparent e made hlaid ih =>
    rw [hlaid] at ih
    exact ih
  | _ => exact .refl _

theorem grown_layDirectories (t : Tree) (path : String) : t.Grown (t.layDirectories path).2 :=
  grown_layDirectoriesWith t path _

theorem openFile_cases {id : Nat} {bytes : ByteArray} (h : t.openFile path = .ok (p, id, bytes, t')) :
    t.place path = p ∧ (t' = t ∧ t.node? p = some (.file id bytes) ∨
      t.node? p = none ∧ t.node? p.dropLast = some .directory ∧ id = t.fresh ∧ bytes = .empty ∧
        t'.here = t.here ∧ t'.fresh = t.fresh + 1 ∧
        ∀ q, t'.node? q = if q = p then some (.file id .empty) else t.node? q) := by
  rcases hl : t.locate path with e | (⟨r, _ | ⟨i, b⟩⟩ | ⟨r, _ | _⟩) <;> rw [openFile, hl] at h
  · cases h
  · cases h
  · cases h
    exact ⟨place_of_found hl, .inl ⟨rfl, node?_of_found hl⟩⟩
  · cases h
    obtain ⟨hplace, hup⟩ := place_of_vacant hl
    exact ⟨hplace, .inr ⟨node?_of_vacant hl, hup, rfl, rfl, rfl, rfl, fun q =>
      node?_set t p q (Reaches.vacant hl).ne_nil _⟩⟩
  · cases h

theorem Sound.openFile {id : Nat} {bytes : ByteArray} (ht : t.Sound)
    (h : t.openFile path = .ok (p, id, bytes, t')) : t'.Sound := by
  obtain ⟨-, ⟨rfl, -⟩ | ⟨hnone, hup, rfl, -, -, hfresh, hnode⟩⟩ := openFile_cases h
  · exact ht
  have hkept : ∀ {q n}, t.node? q = some n → t'.node? q = some n := by
    intro q n hq
    rw [hnode, if_neg, hq]
    rintro rfl
    simp [hnone] at hq
  refine ⟨fun {q n} hq => ?_, fun {q r i b c} hl hq hr => ?_, fun {q i b} hq => ?_⟩
  · rw [hnode] at hq
    split at hq
    next hqp => exact hkept (hqp ▸ hup)
    next => exact hkept (ht.above hq)
  · rw [hnode] at hq hr
    split at hq <;> split at hr
    next hqp hrp => rw [hqp, hrp]
    next =>
      obtain ⟨rfl, -⟩ : t.fresh = i ∧ _ := by simpa using hq
      exact absurd (ht.known hr) (Nat.lt_irrefl _)
    next =>
      obtain ⟨rfl, -⟩ : t.fresh = i ∧ _ := by simpa using hr
      exact absurd (ht.known hq) (Nat.lt_irrefl _)
    next => exact ht.unique hl hq hr
  · rw [hfresh]
    rw [hnode] at hq
    split at hq
    next =>
      obtain ⟨rfl, -⟩ : t.fresh = i ∧ _ := by simpa using hq
      exact Nat.lt_succ_self _
    next => exact Nat.lt_succ_of_lt (ht.known hq)

end Tree

end PushKeeper.Files
