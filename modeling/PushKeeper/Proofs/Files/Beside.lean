import PushKeeper.Proofs.Files.Walk

namespace PushKeeper.Files

theorem cutSlashes_of_not_mem {cs : List Char} (h : '/' ∉ cs) : cutSlashes cs = [cs] := by
  induction cs with
  | nil => rfl
  | cons c cs ih =>
    rw [List.mem_cons, not_or] at h
    simp [cutSlashes, Ne.symm h.1, ih h.2]

theorem exists_cutSlashes (cs : List Char) : ∃ front last, cutSlashes cs = front ++ [last] ∧
    ∀ ds, '/' ∉ ds → cutSlashes (cs ++ ds) = front ++ [last ++ ds] := by
  induction cs with
  | nil => exact ⟨[], [], rfl, fun ds hds => by simp [cutSlashes_of_not_mem hds]⟩
  | cons c cs ih =>
    obtain ⟨front, last, hcs, happ⟩ := ih
    by_cases hc : c = '/'
    · exact ⟨[] :: front, last, by simp [cutSlashes, hc, hcs], fun ds hds => by
        simp [cutSlashes, hc, happ ds hds]⟩
    · cases front with
      | nil =>
        exact ⟨[], c :: last, by simp [cutSlashes, hc, hcs], fun ds hds => by
          simp [cutSlashes, hc, happ ds hds]⟩
      | cons part parts =>
        exact ⟨(c :: part) :: parts, last, by simp [cutSlashes, hc, hcs], fun ds hds => by
          simp [cutSlashes, hc, happ ds hds]⟩

theorem exists_segments (path : String) : ∃ front last, segments path = front ++ [last] ∧
    ∀ suffix : String, '/' ∉ suffix.toList →
      segments (sidecar path suffix) = front ++ [last ++ "." ++ suffix] := by
  obtain ⟨front, last, hcs, happ⟩ := exists_cutSlashes path.toList
  refine ⟨front.map String.ofList, String.ofList last, by simp [segments, hcs], fun suffix hs => ?_⟩
  have hd : '/' ∉ '.' :: suffix.toList := by simp [hs]
  have hsplit : (sidecar path suffix).toList = path.toList ++ '.' :: suffix.toList := by
    simp [sidecar]
  have hlast : String.ofList (last ++ '.' :: suffix.toList) = String.ofList last ++ "." ++ suffix := by
    rw [← String.toList_inj]
    simp
  rw [segments, hsplit, happ _ hd, List.map_append, List.map_singleton, hlast]

theorem isAbsolute_sidecar (path suffix : String) :
    isAbsolute (sidecar path suffix) = isAbsolute path := by
  simp only [isAbsolute, sidecar, String.toList_append]
  cases path.toList with
  | nil => rfl
  | cons c cs => rfl

/-- Can be added to a name: it goes on with no other name, and no name that it ends is a special one. -/
structure IsSuffix (suffix : String) : Prop where
  noSlash : '/' ∉ suffix.toList
  long : 2 ≤ suffix.length

theorem isSuffix_tmp : IsSuffix "tmp" := ⟨by decide, by decide⟩

theorem isSuffix_lock : IsSuffix "lock" := ⟨by decide, by decide⟩

theorem IsSuffix.ne_of_short {suffix : String} (h : IsSuffix suffix) (name : String) {s : String}
    (hs : s.length ≤ 2) : name ++ "." ++ suffix ≠ s := by
  rintro rfl
  have hdot : ".".length = 1 := by decide
  have hlong := h.long
  rw [String.length_append, String.length_append, hdot] at hs
  omega

theorem IsSuffix.isVoid_eq {suffix : String} (h : IsSuffix suffix) (name : String) :
    isVoid (name ++ "." ++ suffix) = false := by
  simp [isVoid, h.ne_of_short name (s := "") (by decide), h.ne_of_short name (s := ".") (by decide)]

theorem ne_sidecarName (name suffix : String) : name ≠ name ++ "." ++ suffix := by
  intro h
  have hlen := congrArg String.length h
  have hdot : ".".length = 1 := by decide
  rw [String.length_append, String.length_append, hdot] at hlen
  omega

namespace Tree

variable {t t' : Tree} {path suffix : String}

theorem exists_of_openFile {p : Place} {id : Nat} {bytes : ByteArray}
    (h : t.openFile path = .ok (p, id, bytes, t')) :
    t.Reaches path p ∧ t'.here = t.here ∧
      ∀ q, t'.node? q = if q = p then some (.file id bytes) else t.node? q := by
  rcases hl : t.locate path with e | (⟨r, _ | ⟨i, b⟩⟩ | ⟨r, _ | _⟩) <;> rw [openFile, hl] at h
  · cases h
  · cases h
  · cases h
    refine ⟨.file hl, rfl, fun q => ?_⟩
    split
    next hq => rw [hq, node?_of_found hl]
    next => rfl
  · cases h
    exact ⟨.vacant hl, rfl, fun q => node?_set t p q (Reaches.vacant hl).ne_nil _⟩
  · cases h

theorem exists_of_write {bytes : ByteArray} (h : t.write path bytes = .ok t') :
    ∃ p id, t.Reaches path p ∧ t'.here = t.here ∧
      ∀ q, t'.node? q = if q = p then some (.file id bytes) else t.node? q := by
  rcases ho : t.openFile path with e | ⟨p, id, old, opened⟩ <;> rw [write, ho] at h
  · cases h
  · cases h
    obtain ⟨hp, hhere, hnode⟩ := exists_of_openFile ho
    refine ⟨p, id, hp, hhere, fun q => ?_⟩
    rw [node?_set opened p q hp.ne_nil, hnode]
    by_cases hq : q = p <;> simp [hq]

theorem exists_of_rename {source : String} {p : Place} {id : Nat} {bytes : ByteArray}
    (hs : t.locate source = .ok (.found p (.file id bytes))) (h : t.rename source path = .ok t') :
    ∃ q, t.Reaches path q ∧ t'.here = t.here ∧
      ∀ r, t'.node? r = if r = q then some (.file id bytes) else if r = p then none else t.node? r := by
  have hmoved : ∀ {q}, t.Reaches path q → ∀ r, ((t.unset p).set q (.file id bytes)).node? r =
      if r = q then some (.file id bytes) else if r = p then none else t.node? r := fun hq r => by
    rw [node?_set _ _ _ hq.ne_nil, node?_unset _ _ _ (Reaches.file hs).ne_nil]
  rcases hl : t.locate path with e | (⟨q, _ | ⟨i, b⟩⟩ | ⟨q, _ | _⟩) <;> rw [rename, hs, hl] at h
  · cases h
  · cases h
  · cases h
    exact ⟨q, .file hl, rfl, hmoved (.file hl)⟩
  · cases h
    exact ⟨q, .vacant hl, rfl, hmoved (.vacant hl)⟩
  · cases h

structure Home (t : Tree) (path : String) (front : List String) (name : String) (d : Place) : Prop where
  segments_eq : segments path = front ++ [name]
  segments_sidecar {suffix : String} (hs : IsSuffix suffix) :
    segments (sidecar path suffix) = front ++ [name ++ "." ++ suffix]
  walk_eq : t.walk (if isAbsolute path then [] else t.here) front = .ok (.found d .directory)

theorem exists_home (hs : IsSuffix suffix) {r : Located} (h : t.locate (sidecar path suffix) = .ok r) :
    ∃ front name d, t.Home path front name d := by
  obtain ⟨front, name, hpath, hsidecar⟩ := exists_segments path
  rw [locate_eq_walk h, isAbsolute_sidecar, hsidecar suffix hs.noSlash] at h
  obtain ⟨d, hd⟩ := walk_of_concat (hs.isVoid_eq name) h
  exact ⟨front, name, d, hpath, fun hs => hsidecar _ hs.noSlash, hd⟩

namespace Home

variable {front : List String} {name : String} {d q : Place}

theorem node?_eq (h : t.Home path front name d) : t.node? d = some .directory :=
  node?_of_walk_found h.walk_eq

theorem keep (h : t.Home path front name d) (hk : t.KeepsDirectories t') : t'.Home path front name d where
  segments_eq := h.segments_eq
  segments_sidecar := h.segments_sidecar
  walk_eq := hk.here_eq ▸ hk.walk_eq h.walk_eq

theorem walk_beside (h : t.Home path front name d) {other x : String}
    (ha : isAbsolute other = isAbsolute path) (hs : segments other = front ++ [x]) :
    t.walk (if isAbsolute other then [] else t.here) (segments other) = t.walk d [x] := by
  rw [ha, hs, walk_append h.walk_eq]

theorem locate_congr (h : t.Home path front name d) (hk : t.KeepsDirectories t') {other x : String}
    (ha : isAbsolute other = isAbsolute path) (hs : segments other = front ++ [x])
    (hup : t'.node? d.dropLast = t.node? d.dropLast)
    (hdown : t'.node? (d ++ [x]) = t.node? (d ++ [x])) : t'.locate other = t.locate other := by
  rw [locate, locate, h.walk_beside ha hs, (h.keep hk).walk_beside ha hs,
    walk_singleton_congr h.node?_eq (h.keep hk).node?_eq hup hdown]

theorem endsAt_beside (h : t.Home path front name d) {other x : String}
    (ha : isAbsolute other = isAbsolute path) (hs : segments other = front ++ [x])
    (hq : t.Reaches other q) : q = d ++ [x] ∨ x = ".." ∧ q = d.dropLast := by
  refine EndsAt.eq_of_singleton ?_ h.node?_eq
  have hends := hq.endsAt
  simpa only [EndsAt, h.walk_beside ha hs] using hends

theorem reaches_sidecar (h : t.Home path front name d) (hs : IsSuffix suffix)
    (hq : t.Reaches (sidecar path suffix) q) : q = d ++ [name ++ "." ++ suffix] :=
  (h.endsAt_beside (isAbsolute_sidecar path suffix) (h.segments_sidecar hs) hq).resolve_right
    fun hup => hs.ne_of_short name (by decide) hup.1

theorem reaches (h : t.Home path front name d) (hq : t.Reaches path q) :
    q = d ++ [name] ∨ q = d.dropLast :=
  (h.endsAt_beside rfl h.segments_eq hq).imp_right And.right

end Home

theorem dropLast_ne_concat (d : Place) (name : String) : d.dropLast ≠ d ++ [name] := by
  intro h
  have hlen := congrArg List.length h
  simp at hlen

section

variable {source : String} {p : Place} {id : Nat} {bytes : ByteArray}

theorem Reaches.keepsDirectories (hp : t.Reaches path p) (hhere : t'.here = t.here) {n : Node}
    (hnode : ∀ q, t'.node? q = if q = p then some n else t.node? q) : t.KeepsDirectories t' := by
  refine ⟨hhere, fun {q} hq => ?_⟩
  rw [hnode, if_neg, hq]
  rintro rfl
  exact hp.node?_ne hq

theorem keepsDirectories_of_openFile (h : t.openFile path = .ok (p, id, bytes, t')) :
    t.KeepsDirectories t' := by
  obtain ⟨hp, hhere, hnode⟩ := exists_of_openFile h
  exact hp.keepsDirectories hhere hnode

theorem keepsDirectories_of_write (h : t.write path bytes = .ok t') : t.KeepsDirectories t' := by
  obtain ⟨p, id, hp, hhere, hnode⟩ := exists_of_write h
  exact hp.keepsDirectories hhere hnode

theorem keepsDirectories_of_rename (hs : t.locate source = .ok (.found p (.file id bytes)))
    (h : t.rename source path = .ok t') : t.KeepsDirectories t' := by
  obtain ⟨q, hq, hhere, hnode⟩ := exists_of_rename hs h
  refine ⟨hhere, fun {r} hr => ?_⟩
  rw [hnode, if_neg, if_neg, hr]
  · rintro rfl
    exact (Reaches.file hs).node?_ne hr
  · rintro rfl
    exact hq.node?_ne hr

theorem locate_of_openFile (h : t.openFile path = .ok (p, id, bytes, t')) :
    t'.locate path = .ok (.found p (.file id bytes)) := by
  obtain ⟨hp, -, hnode⟩ := exists_of_openFile h
  exact hp.locate_eq (keepsDirectories_of_openFile h) (by rw [hnode, if_pos rfl])

theorem exists_locate_of_write (h : t.write path bytes = .ok t') :
    ∃ p id, t'.locate path = .ok (.found p (.file id bytes)) := by
  obtain ⟨p, id, hp, -, hnode⟩ := exists_of_write h
  exact ⟨p, id, hp.locate_eq (keepsDirectories_of_write h) (by rw [hnode, if_pos rfl])⟩

theorem exists_locate_of_rename (hs : t.locate source = .ok (.found p (.file id bytes)))
    (h : t.rename source path = .ok t') : ∃ q, t'.locate path = .ok (.found q (.file id bytes)) := by
  obtain ⟨q, hq, -, hnode⟩ := exists_of_rename hs h
  exact ⟨q, hq.locate_eq (keepsDirectories_of_rename hs h) (by rw [hnode, if_pos rfl])⟩

theorem Reaches.locate_beside (hs : IsSuffix suffix) (hp : t.Reaches (sidecar path suffix) p)
    (hhere : t'.here = t.here) {n : Node}
    (hnode : ∀ q, t'.node? q = if q = p then some n else t.node? q) : t'.locate path = t.locate path := by
  have hk := hp.keepsDirectories hhere hnode
  obtain ⟨front, name, d, hd⟩ : ∃ front name d, t.Home path front name d := by
    cases hp with
    | file hp => exact exists_home hs hp
    | vacant hp => exact exists_home hs hp
  obtain rfl := hd.reaches_sidecar hs hp
  refine hd.locate_congr hk rfl hd.segments_eq ?_ ?_
  · rw [hnode, if_neg (dropLast_ne_concat d _)]
  · rw [hnode, if_neg]
    simpa using ne_sidecarName name suffix

theorem locate_of_openFile_sidecar (hs : IsSuffix suffix)
    (h : t.openFile (sidecar path suffix) = .ok (p, id, bytes, t')) : t'.locate path = t.locate path := by
  obtain ⟨hp, hhere, hnode⟩ := exists_of_openFile h
  exact hp.locate_beside hs hhere hnode

theorem locate_of_write_sidecar (hs : IsSuffix suffix)
    (h : t.write (sidecar path suffix) bytes = .ok t') : t'.locate path = t.locate path := by
  obtain ⟨p, id, hp, hhere, hnode⟩ := exists_of_write h
  exact hp.locate_beside hs hhere hnode

theorem locate_sidecar_of_write {suffix' : String} (hs : IsSuffix suffix) (hs' : IsSuffix suffix')
    (hne : suffix ≠ suffix') {q : Place} {i : Nat} {b : ByteArray}
    (hq : t.locate (sidecar path suffix) = .ok (.found q (.file i b)))
    (h : t.write (sidecar path suffix') bytes = .ok t') :
    t'.locate (sidecar path suffix) = .ok (.found q (.file i b)) := by
  have hk := keepsDirectories_of_write h
  obtain ⟨front, name, d, hd⟩ := exists_home hs hq
  obtain ⟨p, id, hp, -, hnode⟩ := exists_of_write h
  refine (Reaches.file hq).locate_eq hk ?_
  rw [hnode, if_neg, node?_of_found hq]
  rw [hd.reaches_sidecar hs (.file hq), hd.reaches_sidecar hs' hp]
  simpa using hne

theorem locate_sidecar_of_rename {suffix' : String} (hs : IsSuffix suffix) (hs' : IsSuffix suffix')
    (hne : suffix ≠ suffix') {q : Place} {i : Nat} {b : ByteArray}
    (hq : t.locate (sidecar path suffix) = .ok (.found q (.file i b)))
    (hp : t.locate (sidecar path suffix') = .ok (.found p (.file id bytes)))
    (h : t.rename (sidecar path suffix') path = .ok t') :
    t'.locate (sidecar path suffix) = .ok (.found q (.file i b)) := by
  have hk := keepsDirectories_of_rename hp h
  obtain ⟨front, name, d, hd⟩ := exists_home hs hq
  obtain ⟨r, hr, -, hnode⟩ := exists_of_rename hp h
  have hq' := hd.reaches_sidecar hs (.file hq)
  have hqr : q ≠ r := by
    rw [hq']
    obtain rfl | rfl := hd.reaches hr
    · simpa using (ne_sidecarName name suffix).symm
    · exact (dropLast_ne_concat d _).symm
  have hqp : q ≠ p := by
    rw [hq', hd.reaches_sidecar hs' (.file hp)]
    simpa using hne
  refine (Reaches.file hq).locate_eq hk ?_
  rw [hnode, if_neg hqr, if_neg hqp, node?_of_found hq]

end

end Tree

end PushKeeper.Files
