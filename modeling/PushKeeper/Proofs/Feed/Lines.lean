import PushKeeper.Feed.Event
import PushKeeper.Proofs.Feed.Requests
import PushKeeper.Proofs.Json.Printed
import PushKeeper.Proofs.Receiver.Publications
import PushKeeper.Receiver.Intake
import Mathlib.Data.Int.CharZero

namespace PushKeeper.Feed

open Json (Blanks IsValue Printable Value bind_eq_ok)
open Registration (AlertKind Endpoint Snapshot Status)
open Store (Faultless Honest KeyValueStore)

def endpointValue (e : Option Endpoint) : Value :=
  e.elim .null fun e => .string e.address

theorem endpointValue_eq (e : Option Endpoint) : (e.map Endpoint.toJson).getD .null = endpointValue e := by
  cases e <;> rfl

theorem readEndpoint_compact (e : Option Endpoint) (rest : List Char) :
    Snapshot.readEndpoint ((endpointValue e).compact ++ rest) = .ok (e, rest) := by
  cases e with
  | none => rfl
  | some e =>
    have hquote : Json.skipSpace (Json.Text.quote e.address ++ rest) = Json.Text.quote e.address ++ rest :=
      Json.skipSpace_quote e.address rest
    have hread : Endpoint.read (Json.Text.quote e.address ++ rest) = .ok (e, rest) :=
      bind_eq_ok.2 ⟨_, Json.readString_quote hquote, rfl⟩
    change Snapshot.readEndpoint (Json.Text.quote e.address ++ rest) = _
    rw [Snapshot.readEndpoint, hquote]
    exact bind_eq_ok.2 ⟨_, hread, rfl⟩

theorem read_status_quote (s : Status) (rest : List Char) :
    Status.read (Json.Text.quote s.label ++ rest) = .ok (s, rest) := by
  cases s <;> rfl

theorem memberName_quote (name : String) (rest : List Char) :
    Json.memberName (Json.Text.quote name ++ rest) = .ok (name, rest) :=
  Json.memberName_quote (Json.skipSpace_quote name rest)

theorem compact_snapshot (s : Snapshot) : s.toJson.compact =
    '\x7b' :: (Json.Text.quote "endpoint" ++ ':' :: ((endpointValue s.endpoint).compact ++
      ',' :: (Json.Text.quote "status" ++ ':' :: (Json.Text.quote s.status.label ++ ['\x7d'])))) := by
  simp [Snapshot.toJson, Snapshot.toMembers, endpointValue_eq, Value.compact, Json.compactMembers, Json.commas,
    Status.toJson]

theorem readMembers_snapshot (s : Snapshot) (fuel : Nat) : Snapshot.readMembers (fuel + 2) none none
    (Json.Text.quote "endpoint" ++ ':' :: ((endpointValue s.endpoint).compact ++
      ',' :: (Json.Text.quote "status" ++ ':' :: (Json.Text.quote s.status.label ++ ['\x7d'])))) =
    .ok (s, []) := by
  have hcolon : ∀ rest, Json.colon (':' :: rest) = .ok rest := fun rest =>
    Json.colon_eq_ok.2 ⟨[], .nil, rfl⟩
  have hcomma : ∀ rest, Json.more '\x7d' (',' :: rest) = .ok (true, rest) := Json.more_comma .nil _
  have hclose : Json.more '\x7d' ['\x7d'] = .ok (false, []) := rfl
  rw [Snapshot.readMembers, memberName_quote]
  simp [Bind.bind, Except.bind, Pure.pure, Except.pure, hcolon, hcomma, hclose, readEndpoint_compact,
    Snapshot.readMembers, memberName_quote, read_status_quote]

theorem decode_snapshot (s : Snapshot) : Json.decode Snapshot.read s.toJson.render = .ok s := by
  rw [Json.decode, Value.render, String.toList_ofList, compact_snapshot]
  refine bind_eq_ok.2 ⟨(s, []), ?_, rfl⟩
  rw [Snapshot.read, Json.skipSpace_of_not (by decide)]
  have hopen : ∀ rest, Json.opened '\x7d' (Json.Text.quote "endpoint" ++ rest) =
      (false, Json.Text.quote "endpoint" ++ rest) := fun _ => rfl
  simp only [hopen]
  generalize hlength : List.length _ = fuel
  have hfuel : 2 ≤ fuel := by
    rw [← hlength]
    simp only [List.length_append, List.length_cons]
    omega
  obtain ⟨fuel, rfl⟩ := Nat.exists_eq_add_of_le' hfuel
  exact readMembers_snapshot s fuel

/-- The members that the line of an event has; there are no others. -/
inductive Reports (time : Int) : Event → List (String × Value) → Prop
  | ready {endpoint : Option Endpoint} {status : Status} : Reports time (.ready ⟨endpoint, status⟩)
      [("event", .string "ready"), ("endpoint", endpointValue endpoint), ("status", .string status.label),
        ("timestamp", .integer time)]
  | registrationChanged {endpoint : Option Endpoint} {status : Status} :
      Reports time (.registrationChanged ⟨endpoint, status⟩)
      [("event", .string "registration_changed"), ("endpoint", endpointValue endpoint),
        ("status", .string status.label), ("timestamp", .integer time)]
  | alert {kind : AlertKind} : Reports time (.alert kind)
      [("event", .string "alert"), ("kind", .string kind.label), ("timestamp", .integer time)]
  | error {message : String} {fatal : Bool} : Reports time (.error message fatal)
      [("event", .string "error"), ("message", .string message), ("fatal", .bool fatal),
        ("timestamp", .integer time)]
  | stopped {n : Nat} : Reports time (.stopped n)
      [("event", .string "stopped"), ("dropped_tasks", .integer n), ("timestamp", .integer time)]

/-- The counts of an event fit 64 bits. -/
def Event.InRange : Event → Prop
  | .stopped n => n < 2 ^ 64
  | _ => True

/-- A time fits 64 bits. -/
def TimeInRange (time : Int) : Prop :=
  -(2 ^ 63) ≤ time ∧ time < 2 ^ 63

variable {e e' : Event} {time time' : Int} {ms ms' : List (String × Value)}

theorem exists_reports (e : Event) (time : Int) : ∃ ms, e.toJson time = .object ms ∧ Reports time e ms := by
  cases e with
  | ready s => exact ⟨_, by rw [← endpointValue_eq]; rfl, .ready⟩
  | registrationChanged s => exact ⟨_, by rw [← endpointValue_eq]; rfl, .registrationChanged⟩
  | alert kind => exact ⟨_, rfl, .alert⟩
  | error message fatal => exact ⟨_, rfl, .error⟩
  | stopped n => exact ⟨_, rfl, .stopped⟩

theorem endpointValue_inj {a b : Option Endpoint} : endpointValue a = endpointValue b ↔ a = b := by
  rcases a with _ | ⟨⟨a⟩⟩ <;> rcases b with _ | ⟨⟨b⟩⟩ <;> simp [endpointValue]

theorem status_label_inj {a b : Status} : a.label = b.label ↔ a = b := by
  cases a <;> cases b <;> simp [Status.label]

theorem alertKind_label_inj {a b : AlertKind} : a.label = b.label ↔ a = b := by
  cases a <;> cases b <;> simp [AlertKind.label]

theorem Reports.unique (h : Reports time e ms) (h' : Reports time' e' ms) : e = e' ∧ time = time' := by
  generalize hms : ms = ms' at h'
  cases h <;> cases h' <;> simp_all [endpointValue_inj, status_label_inj, alertKind_label_inj]

theorem printable_endpointValue (e : Option Endpoint) (levels : Nat) : Printable levels (endpointValue e) := by
  cases e with
  | none => exact .null
  | some e => exact .string e.address

theorem Reports.printable (h : Reports time e ms) (he : e.InRange) (ht : TimeInRange time) (levels : Nat) :
    ∀ m ∈ ms, Printable levels m.2 := by
  have htime : Printable levels (.integer time) := .integer ht.1 (by have := ht.2; omega)
  cases h with
  | ready | registrationChanged => simp [printable_endpointValue, Printable.string, htime]
  | alert => simp [Printable.string, htime]
  | error => simp [Printable.string, Printable.bool, htime]
  | @stopped n =>
    have hn : n < 2 ^ 64 := he
    simpa [Printable.string, htime] using .integer (by omega) (by omega)

theorem toList_line (h : e.toJson time = .object ms) :
    (e.line time).toList = (Value.object ms).compact ++ ['\n'] := by
  rw [Event.line, Event.render, h, Value.render, String.toList_append, String.toList_ofList]
  rfl

theorem exists_of_line (he : e.InRange) (ht : TimeInRange time) : ∃ ms, Reports time e ms ∧
    Json.decode (Json.value Json.fullDepth) (e.line time) = .ok (.object ms) ∧
      ∃ text, (e.line time).toList = text ++ ['\n'] ∧ '\n' ∉ text := by
  obtain ⟨ms, hms, hreports⟩ := exists_reports e time
  have hprintable : Printable (memberLevels + 1) (.object ms) := .object (hreports.printable he ht _)
  have hblank : Blanks ['\n'] := by simp [Blanks, Json.isSpace]
  refine ⟨ms, hreports, Json.decode_compact hprintable (toList_line hms) hblank, _, toList_line hms, ?_⟩
  exact fun h => Json.not_control_of_mem_compact hprintable h (by decide)

/-- The host reads the address in the line of a change, whenever it is told. -/
def Carries (address : String) (s : Snapshot) : Prop :=
  ∀ time, TimeInRange time → ∃ ms,
    Json.decode (Json.value Json.fullDepth) ((Event.registrationChanged s).line time) = .ok (.object ms) ∧
      named ms "endpoint" = [.string address]

theorem carries_of_endpoint {s : Snapshot} {address : String} (h : s.endpoint = some ⟨address⟩) :
    Carries address s := by
  intro time ht
  obtain ⟨ms, hreports, hdecode, -⟩ := exists_of_line (e := .registrationChanged s) trivial ht
  refine ⟨ms, hdecode, ?_⟩
  cases hreports
  dsimp only at h
  simp [h, endpointValue]

/-- An event is written on one line, which is read as an object of exactly the members that report this event
at this time, and a snapshot that is written reads back. When a line gives an endpoint and the store takes it:

* every change that is published before the next report of an endpoint carries the address of that line,
  whatever else happens and whatever the store refuses meanwhile;
* on a store that refuses nothing, such a change has been published when the receiver rests. -/
theorem lines_carry_events :
    (∀ (e : Event) (time : Int), e.InRange → TimeInRange time →
      (∃ text, (e.line time).toList = text ++ ['\n'] ∧ '\n' ∉ text) ∧
      ∃ ms, Json.decode (Json.value Json.fullDepth) (e.line time) = .ok (.object ms) ∧
        ∀ e' time', Reports time' e' ms ↔ e' = e ∧ time' = time) ∧
    (∀ s : Snapshot, Json.decode Snapshot.read s.toJson.render = .ok s) ∧
    ∀ line address i, Request.ofLine line = .ok (some (.newEndpoint ⟨address⟩ i)) →
      (∀ ms text, Padded line text → IsValue (memberLevels + 1) (.object ms) text →
        named ms "endpoint" = [.string address]) ∧
      (∀ {σ : Type} [KeyValueStore σ] [Honest σ] (r : Receiver σ) (hs : List (Receiver.Happening σ)),
        let r' := (r.apply (.newEndpoint ⟨address⟩ i)).2
        r'.entries.endpoint = some ⟨address⟩ → (∀ h ∈ hs, h.movesEndpoint = false) →
        ∀ s ∈ (r'.afterAll hs).published.drop r.published.length, Carries address s) ∧
      ∀ {σ : Type} [KeyValueStore σ] [Faultless σ] (name : String) (store : σ) (clock : UInt64)
        (policy : Fetch.Policy) (delivery : Fetch.Delivery) (before acts : List Receiver.Act),
        let r := (Receiver.new name store clock policy delivery).after before
        let r' := (r.apply (.newEndpoint ⟨address⟩ i)).2
        (∀ a ∈ before ++ acts, a.isMessage = false) → (∀ a ∈ acts, a.movesEndpoint = false) →
        r.endpoint ≠ some ⟨address⟩ → (r'.after acts).worker.idle →
        ∃ s ∈ (r'.after acts).published.drop r.published.length, Carries address s := by
  refine ⟨fun e time he ht => ?_, decode_snapshot, fun line address i hline => ⟨fun ms text h hv => ?_, ?_, ?_⟩⟩
  · obtain ⟨ms, hreports, hdecode, hframe⟩ := exists_of_line he ht
    refine ⟨hframe, ms, hdecode, fun e' time' => ⟨fun h => h.unique hreports, ?_⟩⟩
    rintro ⟨rfl, rfl⟩
    exact hreports
  · cases (ofLine_object h hv).1 hline with
    | newEndpoint ht he hi => exact he
  · intro σ _ _ r hs r' hstored hh s hmem
    have hshows := Receiver.shows_of_newEndpoint (r := r) (i := i) hstored hh
    exact carries_of_endpoint (hshows.of_mem s hmem)
  · intro σ _ _ name store clock policy delivery before acts r r' hm ha he hi
    have hr := (Receiver.registrar_new name store clock policy delivery).after fun a h =>
      hm a (List.mem_append_left _ h)
    obtain ⟨s, hs, hendpoint⟩ := Receiver.exists_published_of_newEndpoint (i := i) hr he
      (fun a h => hm a (List.mem_append_right _ h)) ha hi
    exact ⟨s, hs, carries_of_endpoint hendpoint⟩

/-- An address with a line feed, a quote and a backslash, given to a receiver that was never configured. -/
theorem lines_carry_line_feed :
    let line := "\x7b\"endpoint\":\"a\\nb\\\"\\\\\",\"event\":\"new_endpoint\"\x7d"
    let address := "a\nb\"\\"
    let r := Receiver.new "registration" Store.Entries.empty 0 default (.fixed true)
    let r' := (r.apply (.newEndpoint ⟨address⟩ "default")).2
    Request.ofLine line = .ok (some (.newEndpoint ⟨address⟩ "default")) ∧
      r'.published = [⟨some ⟨address⟩, .unconfigured⟩] ∧ ∃ s ∈ r'.published, Carries address s := by
  intro line address r r'
  have hline : Request.ofLine line = .ok (some (.newEndpoint ⟨address⟩ "default")) := by
    decide +kernel
  have hpublished : r'.published = [⟨some ⟨address⟩, .unconfigured⟩] := by decide +kernel
  refine ⟨hline, hpublished, ?_⟩
  exact (lines_carry_events.2.2 line address "default" hline).2.2 "registration" Store.Entries.empty 0 default
    (.fixed true) [] [] (by simp) (by simp) (by decide +kernel) (by decide +kernel)

end PushKeeper.Feed
