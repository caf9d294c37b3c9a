import Mathlib.Data.List.DropRight
import PushKeeper.Proofs.Files.Walk

namespace PushKeeper.Files

theorem cutSlashes_eq_splitOn (cs : List Char) : cutSlashes cs = cs.splitOn '/' := by
  induction cs with
  | nil => simp [cutSlashes]
  | cons c cs ih =>
    rw [List.splitOn_cons_eq_if_modifyHead, cutSlashes, ih]
    by_cases hc : c = '/'
    · simp [hc]
    · cases h : cs.splitOn '/' with
      | nil => exact absurd h (List.splitOn_ne_nil _ _)
      | cons part parts => simp [hc]

theorem slash_not_mem_of_mem_cutSlashes {cs part : List Char} (h : part ∈ cutSlashes cs) : '/' ∉ part := by
  induction cs generalizing part with
  | nil => simp_all [cutSlashes]
  | cons c cs ih =>
    rw [cutSlashes] at h
    split at h
    next hc =>
      obtain rfl | h := List.mem_cons.1 h
      · simp
      · exact ih h
    next hc =>
      split at h
      next first rest hcut =>
        obtain rfl | h := List.mem_cons.1 h
        · have hfirst : '/' ∉ first := ih (by simp [hcut])
          simpa [Ne.symm hc] using hfirst
        · exact ih (by simp [hcut, h])
      next =>
        obtain rfl := List.mem_singleton.1 h
        simpa using Ne.symm hc

theorem slash_not_mem_of_mem_segments {path name : String} (h : name ∈ segments path) :
    '/' ∉ name.toList := by
  obtain ⟨part, hpart, rfl⟩ := List.mem_map.1 h
  simpa using slash_not_mem_of_mem_cutSlashes hpart

theorem intercalate_segments (path : String) : "/".intercalate (segments path) = path := by
  have hid : String.toList ∘ String.ofList = id := by funext cs; simp
  rw [← String.toList_inj, String.toList_intercalate, segments, List.map_map, hid, List.map_id,
    cutSlashes_eq_splitOn]
  exact List.intercalate_splitOn '/'

theorem segments_intercalate {names : List String} (hne : names ≠ [])
    (h : ∀ name ∈ names, '/' ∉ name.toList) : segments ("/".intercalate names) = names := by
  have hparts : ∀ part ∈ names.map String.toList, '/' ∉ part := by simpa using h
  have hid : String.ofList ∘ String.toList = id := by funext s; simp
  rw [segments, String.toList_intercalate, cutSlashes_eq_splitOn]
  rw [show "/".toList = ['/'] from rfl, List.splitOn_intercalate '/' hparts (by simpa using hne),
    List.map_map, hid, List.map_id]

theorem intercalate_append {names more : List String} (hn : names ≠ []) (hm : more ≠ []) :
    "/".intercalate (names ++ more) = "/".intercalate names ++ "/" ++ "/".intercalate more := by
  rw [← String.toList_inj]
  simp only [String.toList_append, String.toList_intercalate, List.map_append]
  induction names with
  | nil => exact absurd rfl hn
  | cons name names ih =>
    cases names with
    | nil => simp [List.intercalate_cons_of_ne_nil, hm]
    | cons next names => simp_all [List.intercalate_cons_of_ne_nil]

theorem exists_dropVoid (names : List String) :
    ∃ voids, (∀ name ∈ voids, isVoid name = true) ∧ names = dropVoid names ++ voids := by
  cases names with
  | nil => exact ⟨[], by simp, rfl⟩
  | cons first rest =>
    refine ⟨rest.rtakeWhile isVoid, fun name h => List.mem_rtakeWhile_imp h, ?_⟩
    exact congrArg (first :: ·) (List.rdropWhile_append_rtakeWhile (p := isVoid) (l := rest)).symm

theorem dropVoid_dropVoid (names : List String) : dropVoid (dropVoid names) = dropVoid names := by
  cases names with
  | nil => rfl
  | cons first rest => exact congrArg (first :: ·) (List.rdropWhile_idempotent isVoid rest)

theorem parent?_cases {path dir : String} (h : parent? path = some dir) :
    ∃ names voids last, dropVoid (segments path) = names ++ voids ++ [last] ∧
      (∀ name ∈ voids, isVoid name = true) ∧ dropVoid names = names ∧
      (names = [] ∧ voids = [] ∧ dir = "" ∨ names = [""] ∧ dir = "/" ∨
        names ≠ [] ∧ names ≠ [""] ∧ dir = "/".intercalate names) := by
  rw [parent?] at h
  split at h
  next => cases h
  next => cases h
  next last before _ hrev =>
    obtain ⟨voids, hvoids, hbefore⟩ := exists_dropVoid before.reverse
    have hkept : dropVoid (segments path) = before.reverse ++ [last] := by
      rw [← List.reverse_inj, hrev]
      simp
    refine ⟨dropVoid before.reverse, voids, last, by rw [hkept, ← hbefore], hvoids,
      dropVoid_dropVoid _, ?_⟩
    split at h
    next hroot => exact .inr (.inl ⟨hroot, (Option.some.inj h).symm⟩)
    next hroot =>
      by_cases hnil : before.reverse = []
      · rw [hnil] at hbefore h ⊢
        exact .inl ⟨rfl, by simpa [dropVoid] using hbefore.symm, (Option.some.inj h).symm⟩
      · refine .inr (.inr ⟨?_, hroot, (Option.some.inj h).symm⟩)
        cases hb : before.reverse with
        | nil => exact absurd hb hnil
        | cons first rest => simp [dropVoid]

theorem exists_of_parent? {path dir : String} (h : parent? path = some dir) (hne : dir ≠ "") :
    ∃ names voids last voids', segments path = names ++ voids ++ last :: voids' ∧ names ≠ [] ∧
      (∀ name ∈ voids, isVoid name = true) ∧ (∀ name ∈ voids', isVoid name = true) ∧
      (names = [""] ∧ dir = "/" ∨ dir = "/".intercalate names) := by
  obtain ⟨voids', hvoids', hpath⟩ := exists_dropVoid (segments path)
  obtain ⟨names, voids, last, hkept, hvoids, -, hdir⟩ := parent?_cases h
  refine ⟨names, voids, last, voids', ?_, ?_, hvoids, hvoids', ?_⟩
  · rw [hpath, hkept]
    simp
  · rintro rfl
    obtain ⟨-, -, rfl⟩ | ⟨hroot, -⟩ | ⟨hnil, -, -⟩ := hdir
    · exact hne rfl
    · cases hroot
    · exact hnil rfl
  · obtain ⟨-, -, rfl⟩ | hroot | ⟨-, -, hnames⟩ := hdir
    · exact absurd rfl hne
    · exact .inl hroot
    · exact .inr hnames

theorem exists_append_of_parent? {path dir : String} (h : parent? path = some dir) (hne : dir ≠ "") :
    ∃ more, path = dir ++ more := by
  obtain ⟨names, voids, last, voids', hpath, hnames, -, -, hdir⟩ := exists_of_parent? h hne
  have hjoin : path = "/".intercalate names ++ "/" ++ "/".intercalate (voids ++ last :: voids') := by
    rw [← intercalate_append hnames (by simp), ← List.append_assoc, ← hpath, intercalate_segments]
  obtain ⟨rfl, rfl⟩ | rfl := hdir
  · exact ⟨_, by simpa using hjoin⟩
  · exact ⟨_, by rw [String.append_assoc] at hjoin; exact hjoin⟩

theorem isAbsolute_append {path more : String} (hne : path ≠ "") :
    isAbsolute (path ++ more) = isAbsolute path := by
  obtain ⟨c, cs, hcs⟩ := List.exists_cons_of_ne_nil (l := path.toList) (by simpa using hne)
  simp [isAbsolute, hcs]

namespace Tree

variable {t : Tree} {p q : Place} {names voids : List String} {n : Node}

theorem walk_of_void {name : String} (hv : isVoid name = true)
    (h : t.walk p (names ++ [name]) = .ok (.found q n)) :
    t.walk p names = .ok (.found q .directory) ∧ n = .directory := by
  fun_induction walk t p names with
  | case1 p m hm =>
    obtain rfl : m = .directory := Option.some.inj (hm.symm.trans (node?_of_walk_cons h))
    simp_all [walk]
  | case8 p name' names hp hv' hup hlong hs ih =>
    exact ih (by simpa [walk, hp, hv', hup, hlong, hs] using h)
  | case9 p name' names hp hv' hup hlong hs hall | case10 p name' names hp hv' hup hlong hs hall =>
    simp only [List.cons_append, walk, hp, hv', hup, hlong, hs, Bool.false_eq_true, if_false] at h
    split at h <;> cases h
  | _ => simp_all [walk]

theorem walk_of_voids (hv : ∀ name ∈ voids, isVoid name = true)
    (h : t.walk p (names ++ voids) = .ok (.found q .directory)) :
    t.walk p names = .ok (.found q .directory) := by
  induction voids using List.reverseRecOn with
  | nil => simpa using h
  | append_singleton voids name ih =>
    rw [← List.append_assoc] at h
    exact ih (fun name hn => hv name (by simp [hn])) (walk_of_void (hv name (by simp)) h).1

theorem walk_above_file {name : String} {id : Nat} {bytes : ByteArray}
    (hv : ∀ name ∈ voids, isVoid name = true)
    (h : t.walk p (names ++ name :: voids) = .ok (.found q (.file id bytes))) :
    ∃ d, t.walk p names = .ok (.found d .directory) := by
  cases voids using List.reverseRecOn with
  | nil =>
    cases hn : isVoid name with
    | true => exact absurd (walk_of_void hn h).2 (by simp)
    | false => exact walk_of_concat hn h
  | append_singleton voids last =>
    rw [← List.cons_append, ← List.append_assoc] at h
    exact absurd (walk_of_void (hv last (by simp)) h).2 (by simp)

theorem isDirectory_parent {path dir : String} {id : Nat} {bytes : ByteArray}
    (h : t.locate path = .ok (.found p (.file id bytes))) (hdir : parent? path = some dir)
    (hne : dir ≠ "") : t.isDirectory dir = true := by
  obtain ⟨names, voids, last, voids', hpath, hnames, hvoids, hvoids', hspelled⟩ :=
    exists_of_parent? hdir hne
  obtain ⟨more, hmore⟩ := exists_append_of_parent? hdir hne
  have habsolute : isAbsolute path = isAbsolute dir := hmore ▸ isAbsolute_append hne
  have hwalk : t.walk (if isAbsolute path then [] else t.here) (segments path) =
      .ok (.found p (.file id bytes)) := locate_eq_walk h t ▸ h
  rw [hpath, habsolute] at hwalk
  obtain ⟨d, hd⟩ := walk_above_file hvoids' hwalk
  have hwalk' := walk_of_voids hvoids hd
  have hlocate : t.locate dir = t.walk (if isAbsolute dir then [] else t.here) (segments dir) :=
    locate_of_append hne (hmore ▸ h)
  refine isDirectory_iff.2 ?_
  rw [hlocate]
  obtain ⟨rfl, rfl⟩ | rfl := hspelled
  · exact ⟨[], by simp [isAbsolute, segments, cutSlashes, walk, isVoid]⟩
  · have hslash : ∀ name ∈ names, '/' ∉ name.toList := fun name hn => by
      have hmem : name ∈ segments path := by simp [hpath, hn]
      exact slash_not_mem_of_mem_segments hmem
    rw [segments_intercalate hnames hslash]
    exact ⟨d, hwalk'⟩

end Tree

end PushKeeper.Files
