import Mathlib
import PushKeeper.Proofs.Store.Corruption
import PushKeeper.Proofs.Toml.Documents
import PushKeeper.Settings.File

namespace PushKeeper.Settings

open Toml (Members Value)

inductive Form
  | flag
  | count
  | words
  | text

namespace Form

abbrev Content : Form → Type
  | flag => Bool
  | count => Nat
  | words => List String
  | text => String

instance : (f : Form) → Readable f.Content
  | flag => inferInstanceAs (Readable Bool)
  | count => inferInstanceAs (Readable Nat)
  | words => inferInstanceAs (Readable (List String))
  | text => inferInstanceAs (Readable String)

end Form

def items? : Value → Option (List Value)
  | .array items => some items
  | .tables elements => some (elements.map (.table .opened))
  | _ => none

/-- The value is of this form and has this content. -/
def Form.Denotes : (f : Form) → Value → f.Content → Prop
  | flag, v, b => v = .boolean b
  | count, v, n => v = .integer (n : Nat)
  | words, v, ws => items? v = some (ws.map .string)
  | text, v, s => v = .string s

theorem each?_eq_some {vs : List Value} {ws : List String} :
    each? vs = some ws ↔ vs = ws.map .string := by
  induction vs generalizing ws with
  | nil => cases ws <;> simp [each?]
  | cons v vs ih =>
    cases ws with
    | nil => cases v <;> simp [each?, Readable.ofValue?, Option.bind_eq_some_iff]
    | cons w ws =>
      cases v <;> simp [each?, Readable.ofValue?, Option.bind_eq_some_iff, ih, and_comm]

theorem ofValue?_words {v : Value} {ws : List String} :
    Readable.ofValue? v = some ws ↔ items? v = some (ws.map .string) := by
  cases v with
  | array items => exact each?_eq_some.trans Option.some_inj.symm
  | tables elements => exact each?_eq_some.trans Option.some_inj.symm
  | _ => simp [Readable.ofValue?, items?]

theorem ofValue?_count {v : Value} {n : Nat} (hv : v.Proper) :
    Readable.ofValue? v = some n ↔ v = .integer n := by
  cases hv with
  | @integer m _ hhigh =>
    have hm : m.toNat? = some n ↔ m = n := Int.mem_toNat?
    simp only [Readable.ofValue?, Option.filter_eq_some_iff, hm, Value.integer.injEq,
      decide_eq_true_eq, and_iff_left_iff_imp]
    rintro rfl
    have hbound : Int.pow 2 63 ≤ (Nat.pow 2 64 : Nat) := by decide
    exact Int.ofNat_lt.1 (Int.lt_of_lt_of_le hhigh hbound)
  | _ => simp [Readable.ofValue?]

theorem Form.ofValue?_eq_some {f : Form} {v : Value} (hv : v.Proper) {x : f.Content} :
    Readable.ofValue? v = some x ↔ f.Denotes v x := by
  cases f with
  | flag => cases v <;> simp [Readable.ofValue?, Denotes]
  | count => exact ofValue?_count hv
  | words => exact ofValue?_words
  | text => cases v <;> simp [Readable.ofValue?, Denotes]

inductive Key
  | enabled
  | foregroundMandatory
  | platformRequiresForeground
  | cooldownSeconds
  | register
  | enqueueFetch
  | legacyPull
  | path

namespace Key

def group : Key → String
  | enabled => "transport"
  | foregroundMandatory | platformRequiresForeground | cooldownSeconds => "fetch"
  | register | enqueueFetch | legacyPull => "hooks"
  | path => "store"

def name : Key → String
  | enabled => "enabled"
  | foregroundMandatory => "foreground_mandatory"
  | platformRequiresForeground => "platform_requires_foreground"
  | cooldownSeconds => "cooldown_secs"
  | register => "register"
  | enqueueFetch => "enqueue_fetch"
  | legacyPull => "legacy_pull"
  | path => "path"

def form : Key → Form
  | enabled | foregroundMandatory | platformRequiresForeground => .flag
  | cooldownSeconds => .count
  | register | enqueueFetch | legacyPull => .words
  | path => .text

def of : (k : Key) → Settings → k.form.Content
  | enabled, s => s.transport.enabled
  | foregroundMandatory, s => s.fetch.foregroundMandatory
  | platformRequiresForeground, s => s.fetch.platformRequiresForeground
  | cooldownSeconds, s => s.fetch.cooldownSeconds
  | register, s => s.hooks.register
  | enqueueFetch, s => s.hooks.enqueueFetch
  | legacyPull, s => s.hooks.legacyPull
  | path, s => s.store.path

/-- What the key is read as where its group is a table without it. -/
def usual : (k : Key) → k.form.Content
  | enabled => usualSwitch
  | foregroundMandatory => false
  | platformRequiresForeground => usualSwitch
  | cooldownSeconds => usualCooldownSeconds
  | register => []
  | enqueueFetch => []
  | legacyPull => []
  | path => usualPath

theorem usual_eq (k : Key) : k.usual = k.of standard := by
  cases k <;> rfl

def value? (k : Key) (doc : Members) : Option Value :=
  match doc.get? k.group with
  | some (.table _ ms) => Members.get? ms k.name
  | _ => none

/-- What a document says for the key: what it gives, or else the usual value. -/
def read? (k : Key) (doc : Members) : Option k.form.Content :=
  match k.value? doc with
  | some v => Readable.ofValue? v
  | none => some (k.of standard)

end Key

theorem ext_of {s t : Settings} (h : ∀ k : Key, k.of s = k.of t) : s = t := by
  obtain ⟨⟨enabled⟩, ⟨foreground, platform, cooldown⟩, ⟨register, enqueue, pull⟩, ⟨path⟩⟩ := s
  obtain rfl : enabled = _ := h .enabled
  obtain rfl : foreground = _ := h .foregroundMandatory
  obtain rfl : platform = _ := h .platformRequiresForeground
  obtain rfl : cooldown = _ := h .cooldownSeconds
  obtain rfl : register = _ := h .register
  obtain rfl : enqueue = _ := h .enqueueFetch
  obtain rfl : pull = _ := h .legacyPull
  obtain rfl : path = _ := h .path
  rfl

def ofContents (c : (k : Key) → k.form.Content) : Settings where
  transport := ⟨c .enabled⟩
  fetch := ⟨c .foregroundMandatory, c .platformRequiresForeground, c .cooldownSeconds⟩
  hooks := ⟨c .register, c .enqueueFetch, c .legacyPull⟩
  store := ⟨c .path⟩

theorem of_ofContents (c : (k : Key) → k.form.Content) (k : Key) : k.of (ofContents c) = c k := by
  cases k <;> rfl

/-- The group is absent, or a table. -/
def IsGroup (group : String) (doc : Members) : Prop :=
  ∀ v, doc.get? group = some v → ∃ kind ms, v = .table kind ms

variable {doc : Members} {s : Settings}

theorem given?_table {kind : Toml.TableKind} {ms : Members} (hms : ms.Proper) (names : List String) :
    given? names (.table kind ms) = some ms.get? := by
  have hsingle : areSingle names ms := by
    refine List.all_eq_true.2 fun name _ => decide_eq_true ?_
    have hcount := List.nodup_iff_count_le_one.1 hms.names name
    rwa [List.count_eq_countP, List.countP_map, List.countP_eq_length_filter] at hcount
  exact if_pos hsingle

/-! A group whose table is there is read key by key. -/

section

variable {kind : Toml.TableKind} {ms : Members} (hms : ms.Proper)

include hms

theorem ofValue?_transport {t : Transport} :
    Readable.ofValue? (.table kind ms) = some t ↔
      field? ms.get? "enabled" usualSwitch = some t.enabled := by
  obtain ⟨enabled⟩ := t
  simp [Readable.ofValue?, given?_table hms, Option.bind_eq_some_iff]

theorem ofValue?_fetching {f : Fetching} :
    Readable.ofValue? (.table kind ms) = some f ↔
      field? ms.get? "foreground_mandatory" false = some f.foregroundMandatory ∧
        field? ms.get? "platform_requires_foreground" usualSwitch =
          some f.platformRequiresForeground ∧
        field? ms.get? "cooldown_secs" usualCooldownSeconds = some f.cooldownSeconds := by
  obtain ⟨foreground, platform, cooldown⟩ := f
  simp [Readable.ofValue?, given?_table hms, Option.bind_eq_some_iff, -Bool.exists_bool]

theorem ofValue?_hooks {h : Hooks} :
    Readable.ofValue? (.table kind ms) = some h ↔
      field? ms.get? "register" [] = some h.register ∧
        field? ms.get? "enqueue_fetch" [] = some h.enqueueFetch ∧
        field? ms.get? "legacy_pull" [] = some h.legacyPull := by
  obtain ⟨register, enqueue, pull⟩ := h
  simp [Readable.ofValue?, given?_table hms, Option.bind_eq_some_iff]

theorem ofValue?_storage {t : Storage} :
    Readable.ofValue? (.table kind ms) = some t ↔ field? ms.get? "path" usualPath = some t.path := by
  obtain ⟨path⟩ := t
  simp [Readable.ofValue?, given?_table hms, Option.bind_eq_some_iff]

theorem ofValue?_settings :
    Readable.ofValue? (.table kind ms) = some s ↔
      field? ms.get? "transport" {} = some s.transport ∧ field? ms.get? "fetch" {} = some s.fetch ∧
        field? ms.get? "hooks" {} = some s.hooks ∧ field? ms.get? "store" {} = some s.store := by
  obtain ⟨transport, fetch, hooks, store⟩ := s
  simp [Readable.ofValue?, given?_table hms, Option.bind_eq_some_iff]

omit hms in
theorem Key.read?_of_table {k : Key} (hg : doc.get? k.group = some (.table kind ms)) :
    k.read? doc = field? ms.get? k.name k.usual := by
  have hv : k.value? doc = ms.get? k.name := by simp [value?, hg]
  cases h : ms.get? k.name <;> simp [read?, field?, hv, h, usual_eq]

end

theorem Key.read?_of_absent {k : Key} (hg : doc.get? k.group = none) :
    k.read? doc = some (k.of standard) := by
  simp [read?, value?, hg]

/-! Whether the group is absent or the key, its value is the same. -/

section

variable (hdoc : doc.Proper)

include hdoc

theorem field?_eq_some {α : Type} [Readable α] {group : String} {usual x : α} {p : Prop}
    (h : IsGroup group doc) (habsent : doc.get? group = none → (some usual = some x ↔ p))
    (htable : ∀ kind ms, doc.get? group = some (.table kind ms) → Members.Proper ms →
      (Readable.ofValue? (.table kind ms) = some x ↔ p)) :
    field? doc.get? group usual = some x ↔ p := by
  rw [field?]
  cases hg : doc.get? group with
  | none => exact habsent hg
  | some v =>
    obtain ⟨kind, ms, rfl⟩ := h v hg
    exact htable kind ms hg (Members.proper_iff.1 (hdoc.get? hg))

theorem field?_transport (h : IsGroup "transport" doc) {t : Transport} :
    field? doc.get? "transport" {} = some t ↔ Key.enabled.read? doc = some t.enabled := by
  refine field?_eq_some hdoc h (fun hg => ?_) fun kind ms hg hms => ?_
  · rw [Key.read?_of_absent hg]
    show some ({} : Transport) = some t ↔ some true = some t.enabled
    obtain ⟨enabled⟩ := t
    simp
  · rw [Key.read?_of_table hg]
    exact ofValue?_transport hms

theorem field?_fetching (h : IsGroup "fetch" doc) {f : Fetching} :
    field? doc.get? "fetch" {} = some f ↔
      Key.foregroundMandatory.read? doc = some f.foregroundMandatory ∧
        Key.platformRequiresForeground.read? doc = some f.platformRequiresForeground ∧
        Key.cooldownSeconds.read? doc = some f.cooldownSeconds := by
  refine field?_eq_some hdoc h (fun hg => ?_) fun kind ms hg hms => ?_
  · rw [Key.read?_of_absent hg, Key.read?_of_absent hg, Key.read?_of_absent hg]
    show some ({} : Fetching) = some f ↔ some false = some f.foregroundMandatory ∧
      some true = some f.platformRequiresForeground ∧ some 180 = some f.cooldownSeconds
    obtain ⟨foreground, platform, cooldown⟩ := f
    simp [usualCooldownSeconds]
  · rw [Key.read?_of_table hg, Key.read?_of_table hg, Key.read?_of_table hg]
    exact ofValue?_fetching hms

theorem field?_hooks (h : IsGroup "hooks" doc) {hooks : Hooks} :
    field? doc.get? "hooks" {} = some hooks ↔
      Key.register.read? doc = some hooks.register ∧
        Key.enqueueFetch.read? doc = some hooks.enqueueFetch ∧
        Key.legacyPull.read? doc = some hooks.legacyPull := by
  refine field?_eq_some hdoc h (fun hg => ?_) fun kind ms hg hms => ?_
  · rw [Key.read?_of_absent hg, Key.read?_of_absent hg, Key.read?_of_absent hg]
    show some ({} : Hooks) = some hooks ↔ some [] = some hooks.register ∧
      some [] = some hooks.enqueueFetch ∧ some [] = some hooks.legacyPull
    obtain ⟨register, enqueue, pull⟩ := hooks
    simp
  · rw [Key.read?_of_table hg, Key.read?_of_table hg, Key.read?_of_table hg]
    exact ofValue?_hooks hms

theorem field?_storage (h : IsGroup "store" doc) {t : Storage} :
    field? doc.get? "store" {} = some t ↔ Key.path.read? doc = some t.path := by
  refine field?_eq_some hdoc h (fun hg => ?_) fun kind ms hg hms => ?_
  · rw [Key.read?_of_absent hg]
    show some ({} : Storage) = some t ↔ some "state.json" = some t.path
    obtain ⟨path⟩ := t
    simp [usualPath]
  · rw [Key.read?_of_table hg]
    exact ofValue?_storage hms

theorem Key.read?_eq {k : Key} (hk : IsGroup k.group doc)
    (h : Readable.ofValue? (.table .opened doc) = some s) : k.read? doc = some (k.of s) := by
  obtain ⟨htransport, hfetch, hhooks, hstore⟩ := (ofValue?_settings hdoc).1 h
  cases k with
  | enabled => exact (field?_transport hdoc hk).1 htransport
  | foregroundMandatory => exact ((field?_fetching hdoc hk).1 hfetch).1
  | platformRequiresForeground => exact ((field?_fetching hdoc hk).1 hfetch).2.1
  | cooldownSeconds => exact ((field?_fetching hdoc hk).1 hfetch).2.2
  | register => exact ((field?_hooks hdoc hk).1 hhooks).1
  | enqueueFetch => exact ((field?_hooks hdoc hk).1 hhooks).2.1
  | legacyPull => exact ((field?_hooks hdoc hk).1 hhooks).2.2
  | path => exact (field?_storage hdoc hk).1 hstore

theorem ofValue?_eq_some (hgroups : ∀ k : Key, IsGroup k.group doc) :
    Readable.ofValue? (.table .opened doc) = some s ↔ ∀ k : Key, k.read? doc = some (k.of s) := by
  constructor
  · intro h k
    exact Key.read?_eq hdoc (hgroups k) h
  · intro h
    refine (ofValue?_settings hdoc).2 ⟨?_, ?_, ?_, ?_⟩
    · exact (field?_transport hdoc (hgroups .enabled)).2 (h .enabled)
    · exact (field?_fetching hdoc (hgroups .cooldownSeconds)).2
        ⟨h .foregroundMandatory, h .platformRequiresForeground, h .cooldownSeconds⟩
    · exact (field?_hooks hdoc (hgroups .register)).2
        ⟨h .register, h .enqueueFetch, h .legacyPull⟩
    · exact (field?_storage hdoc (hgroups .path)).2 (h .path)

theorem Key.proper_value? {k : Key} {v : Value} (hv : k.value? doc = some v) : v.Proper := by
  rw [value?] at hv
  split at hv
  next hg => exact (Members.proper_iff.1 (hdoc.get? hg)).get? hv
  next => cases hv

theorem Key.read?_of_rel {k : Key} {given : Option k.form.Content}
    (h : Option.Rel k.form.Denotes (k.value? doc) given) :
    k.read? doc = some (given.getD (k.of standard)) := by
  rw [read?]
  cases hv : k.value? doc with
  | none =>
    rw [hv] at h
    cases h
    rfl
  | some v =>
    rw [hv] at h
    cases h with
    | some h => exact (Form.ofValue?_eq_some (Key.proper_value? hdoc hv)).2 h

theorem ofValue?_eq_none {k : Key} {v : Value} (hv : k.value? doc = some v)
    (h : ∀ x, ¬ k.form.Denotes v x) :
    (Readable.ofValue? (.table .opened doc) : Option Settings) = none := by
  have hk : IsGroup k.group doc := by
    intro w hw
    rw [Key.value?, hw] at hv
    cases w with
    | table kind ms => exact ⟨kind, ms, rfl⟩
    | _ => cases hv
  refine Option.eq_none_iff_forall_ne_some.2 fun s hs => ?_
  have hread := Key.read?_eq hdoc hk hs
  rw [Key.read?, hv] at hread
  exact h _ ((Form.ofValue?_eq_some (Key.proper_value? hdoc hv)).1 hread)

end

/-! The file. -/

variable {parse : String → Option Members} {tree : Files.Tree} {dir text : String}

theorem load_of_text (h : tree.read (Files.join dir fileName) = .ok text.toUTF8) :
    loadWith parse tree dir = (ofText? parse text).getD standard := by
  have hread : tree.readText (Files.join dir fileName) = .ok text := by
    rw [Files.Tree.readText, h]
    simp only [bind, Except.bind, Store.FileStore.fromUTF8?_eq_some.2 rfl, pure, Except.pure]
  rw [loadWith, hread]
  rfl

theorem load_of_no_text (h : ∀ text : String, tree.read (Files.join dir fileName) ≠ .ok text.toUTF8) :
    loadWith parse tree dir = standard := by
  have hread : ∃ cause, tree.readText (Files.join dir fileName) = .error cause := by
    rw [Files.Tree.readText]
    cases hb : tree.read (Files.join dir fileName) with
    | error cause => exact ⟨cause, rfl⟩
    | ok bytes =>
      have hnone : String.fromUTF8? bytes = none :=
        Option.eq_none_iff_forall_ne_some.2 fun text ht =>
          h text (by rw [hb, Store.FileStore.fromUTF8?_eq_some.1 ht])
      exact ⟨.notText, by simp [bind, Except.bind, hnone]⟩
  obtain ⟨cause, hread⟩ := hread
  rw [loadWith, hread]
  rfl

theorem ofText?_of_parse (h : parse text = some doc) :
    ofText? parse text = Readable.ofValue? (.table .opened doc) := by
  rw [ofText?, h]
  rfl

/-- The settings in a directory overlay the usual ones completely or not at all, with any reader of TOML.

* Where the file is a document whose groups are absent or tables, and each key in them is absent or in its form,
  they have what is given, and for every other key the usual value, whether the key is absent or its group.
* Where the file is not there or no text, they are the usual ones;
* where it is no document;
* and where it gives one key a value in another form, whatever else it gives. -/
theorem load_overlays_standard {parse : String → Option Members} (hparse : Toml.Reads parse)
    (tree : Files.Tree) (dir : String) :
    let file := tree.read (Files.join dir fileName)
    (∀ text doc, file = .ok text.toUTF8 → parse text = some doc →
      (∀ k : Key, IsGroup k.group doc) → ∀ given : (k : Key) → Option k.form.Content,
      (∀ k, Option.Rel k.form.Denotes (k.value? doc) (given k)) →
        ∀ s, loadWith parse tree dir = s ↔ ∀ k, k.of s = (given k).getD (k.of standard)) ∧
      ((∀ text : String, file ≠ .ok text.toUTF8) → loadWith parse tree dir = standard) ∧
      (∀ text, file = .ok text.toUTF8 → parse text = none → loadWith parse tree dir = standard) ∧
      ∀ text doc (k : Key) v, file = .ok text.toUTF8 → parse text = some doc →
        k.value? doc = some v → (∀ x, ¬ k.form.Denotes v x) → loadWith parse tree dir = standard := by
  intro file
  refine ⟨?_, load_of_no_text, ?_, ?_⟩
  · intro text doc hfile htext hgroups given hgiven s
    have hdoc : doc.Proper := Members.proper_iff.1 (hparse text doc htext)
    let given' := ofContents fun k => (given k).getD (k.of standard)
    have hof (k : Key) : k.of given' = (given k).getD (k.of standard) := of_ofContents _ k
    have hread : Readable.ofValue? (.table .opened doc) = some given' := by
      refine (ofValue?_eq_some hdoc hgroups).2 fun k => ?_
      rw [hof]
      exact Key.read?_of_rel hdoc (hgiven k)
    rw [load_of_text hfile, ofText?_of_parse htext, hread, Option.getD_some]
    constructor
    · rintro rfl k
      exact hof k
    · intro hs
      exact ext_of fun k => (hof k).trans (hs k).symm
  · intro text hfile htext
    rw [load_of_text hfile, ofText?, htext]
    rfl
  · intro text doc k v hfile htext hv hform
    have hdoc : doc.Proper := Members.proper_iff.1 (hparse text doc htext)
    rw [load_of_text hfile, ofText?_of_parse htext, ofValue?_eq_none hdoc hv hform]
    rfl

def filed (bytes : ByteArray) : Files.Tree := ⟨[([fileName], .file 0 bytes)], 1, [], []⟩

set_option maxRecDepth 2000 in
/-- Groups with dots, between braces and under headers, with a name that means nothing and a group with nothing in
it; a file that is no text, one that is no document, and one with a single value out of range. -/
theorem load_filed :
    let partly := "hooks.register = [\"relay\"]\nstore = \x7b path = \"s.json\" \x7d\n" ++
      "[transport]\n[fetch]\nhue = 7\ncooldown_secs = 30\n"
    let unread := "colour = blue\n"
    let outOfRange := "hooks.register = [\"relay\"]\nfetch.cooldown_secs = -1\n"
    load (filed partly.toUTF8) "." =
        { fetch := { cooldownSeconds := 30 }, hooks := { register := ["relay"] }, store := ⟨"s.json"⟩ } ∧
      load (filed ⟨#[0xff]⟩) "." = standard ∧ load (filed unread.toUTF8) "." = standard ∧
      load (filed outOfRange.toUTF8) "." = standard := by
  intro partly unread outOfRange
  have overlays (bytes : ByteArray) := load_overlays_standard Toml.reads_parse? (filed bytes) "."
  refine ⟨?_, ?_, ?_, ?_⟩
  · let given : (k : Key) → Option k.form.Content
      | .cooldownSeconds => some (30 : Nat)
      | .register => some ["relay"]
      | .path => some "s.json"
      | _ => none
    let doc : Members := [
      ("hooks", .table .dotted [("register", .array [.string "relay"])]),
      ("store", .table .inline [("path", .string "s.json")]),
      ("transport", .table .opened []),
      ("fetch", .table .opened [("hue", .integer 7), ("cooldown_secs", .integer 30)])]
    have hdoc : Toml.parse? partly = some doc := by cbv
    refine ((overlays _).1 partly doc (by decide +kernel) hdoc ?_ given ?_ _).2 ?_
    · intro k v hv
      cases k <;> (cases hv; exact ⟨_, _, rfl⟩)
    · intro k
      cases k with
      | cooldownSeconds | register | path => exact .some rfl
      | _ => exact .none
    · intro k
      cases k <;> rfl
  · have hread : (filed ⟨#[0xff]⟩).read (Files.join "." fileName) = .ok ⟨#[0xff]⟩ := by decide +kernel
    have hnone : String.fromUTF8? ⟨#[0xff]⟩ = none := by decide +kernel
    refine (overlays _).2.1 fun text h => ?_
    rw [hread] at h
    rw [Store.FileStore.fromUTF8?_eq_some.2 (Except.ok.inj h)] at hnone
    cases hnone
  · exact (overlays _).2.2.1 unread (by decide +kernel) (by decide +kernel)
  · let doc : Members := [
      ("hooks", .table .dotted [("register", .array [.string "relay"])]),
      ("fetch", .table .dotted [("cooldown_secs", .integer (-1))])]
    have hdoc : Toml.parse? outOfRange = some doc := by cbv
    refine (overlays _).2.2.2 outOfRange doc .cooldownSeconds (.integer (-1)) (by decide +kernel) hdoc rfl
      fun n h => ?_
    cases h

end PushKeeper.Settings
