import PushKeeper.Proofs.Daemon.Run

namespace PushKeeper.Daemon

open Feed (Event)
open Receiver (Act)
open Registration (Snapshot)
open Store (KeyValueStore)

def said (input : List UInt8) : List Line := (lines input).map Line.ofBytes

@[simp] theorem ofRequest?_quit : Act.ofRequest? .quit = none := rfl

namespace Line

def isQuit : Line → Bool
  | request .quit => true
  | _ => false

@[simp] def ends : Line → Bool
  | request .quit => true
  | garbled => true
  | _ => false

def isFaulty : Line → Bool
  | bad _ => true
  | garbled => true
  | _ => false

@[simp] def act? : Line → Option Act
  | request r => Act.ofRequest? r
  | _ => none

@[simp] def complaint? : Line → Option Event
  | bad cause => some (badLine cause)
  | _ => none

def upTo (p : Line → Bool) : List Line → List Line
  | [] => []
  | l :: ls => if p l then [l] else l :: upTo p ls

end Line

open Line (upTo)

def isComplaint : Event → Bool
  | .error message false => "Invalid input: ".toList.isPrefixOf message.toList
  | _ => false

theorem isComplaint_badLine (cause : Failure) : isComplaint (badLine cause) := by
  have he : badLine cause = .error ("Invalid input: " ++ cause.message) false := rfl
  simp [he, isComplaint]

theorem isComplaint_switchFailed (cause : Failure) :
    isComplaint (Receiver.switchFailed cause) = false := by
  have he : Receiver.switchFailed cause =
    .error ("Air-gapped switch failed: " ++ cause.message) false := rfl
  simp [he, isComplaint, List.isPrefixOf]

def complaints (events : List Event) : List Event := events.filter isComplaint

section

variable {events : List Event}

@[simp] theorem complaints_append (as bs : List Event) :
    complaints (as ++ bs) = complaints as ++ complaints bs := List.filter_append ..

theorem complaints_eq_nil (h : ∀ e ∈ events, isComplaint e = false) : complaints events = [] := by
  simpa [complaints] using h

@[simp] theorem complaints_alertsSince (before after : List Receiver.Notice) :
    complaints (Receiver.alertsSince before after) = [] := by
  refine complaints_eq_nil fun e he => ?_
  obtain ⟨kind, rfl⟩ := Receiver.exists_alert_of_mem he
  rfl

theorem complaints_changes (snapshots : List Snapshot) :
    complaints (snapshots.map .registrationChanged) = [] := by
  refine complaints_eq_nil fun e he => ?_
  obtain ⟨snapshot, -, rfl⟩ := List.mem_map.1 he
  rfl

end

theorem upTo_cons (p : Line → Bool) (l : Line) (ls : List Line) :
    upTo p (l :: ls) = l :: if p l then [] else upTo p ls := by
  cases h : p l <;> simp [upTo, h]

theorem Line.upTo_prefix_self (p : Line → Bool) (ls : List Line) : upTo p ls <+: ls := by
  induction ls with
  | nil => exact List.prefix_rfl
  | cons l ls ih =>
    rw [upTo_cons, List.prefix_cons_inj]
    cases p l with
    | true => exact List.nil_prefix
    | false => exact ih

theorem Line.isQuit_of_ends {l : Line} (h : l.ends = false) : l.isQuit = false := by
  cases l with
  | request r => cases r <;> first | rfl | simp at h
  | _ => rfl

theorem upTo_ends_le (ls : List Line) : upTo Line.ends ls <+: upTo Line.isQuit ls := by
  induction ls with
  | nil => exact List.prefix_rfl
  | cons l ls ih =>
    rw [upTo_cons, upTo_cons, List.prefix_cons_inj]
    cases hl : l.ends with
    | true => exact List.nil_prefix
    | false => simpa [Line.isQuit_of_ends hl] using ih

theorem upTo_of_not_mem {ls : List Line} (h : .garbled ∉ upTo Line.isQuit ls) :
    upTo Line.ends ls = upTo Line.isQuit ls := by
  induction ls with
  | nil => rfl
  | cons l ls ih =>
    rw [upTo_cons] at h ⊢
    rw [upTo_cons]
    simp only [List.mem_cons, not_or] at h
    obtain ⟨hl, hls⟩ := h
    have he : l.ends = l.isQuit := by
      cases l with
      | garbled => exact absurd rfl hl
      | request r => cases r <;> rfl
      | _ => rfl
    rw [he]
    cases hq : l.isQuit with
    | true => rfl
    | false => exact congrArg (l :: ·) (ih (by simpa [hq] using hls))

theorem countP_isFaulty (ls : List Line) :
    ls.countP Line.isFaulty = (ls.filterMap Line.complaint?).length + ls.count .garbled := by
  induction ls with
  | nil => rfl
  | cons l ls ih =>
    rw [List.countP_cons, List.filterMap_cons, List.count_cons, ih]
    cases l <;> simp [Line.isFaulty] <;> omega

theorem said_cases (bytes : List UInt8) :
    (nextLine? bytes = none ∧ said bytes = []) ∨
      ∃ line rest, nextLine? bytes = some (line, rest) ∧ rest.length < bytes.length ∧
        said bytes = .ofBytes line :: said rest := by
  obtain ⟨hn, -, hl⟩ | ⟨line, rest, hn, hlt, hl⟩ := nextLine?_cases bytes
  · exact .inl ⟨hn, by simp [said, hl]⟩
  · exact .inr ⟨line, rest, hn, hlt, by simp [said, hl]⟩

namespace Session

variable {σ : Type} {s s' : Session σ}

def toCome (s : Session σ) : List Line :=
  s.unread.elim [] fun bytes => upTo Line.ends (said bytes)

/-- Where the lines that are read in all have got to, if `acts` has been asked of the receiver. -/
structure Heeds (all : List Line) (acts : List Act) (s : Session σ) : Prop where
  acts_eq : acts ++ s.queue.filterMap Act.ofRequest? ++ s.toCome.filterMap Line.act? =
    all.filterMap Line.act?
  complaints_eq : complaints s.printed ++ s.toCome.filterMap Line.complaint? =
    all.filterMap Line.complaint?
  quit_last : .quit ∉ s.queue ∨ s.unread = none ∧ ∃ queue, .quit ∉ queue ∧ s.queue = queue ++ [.quit]
  nothing_left : s.stage ≠ .serving → s.queue = [] ∧ s.unread = none

namespace Heeds

variable {all : List Line} {acts : List Act}

theorem of_eq (h : Heeds all acts s) (hu : s'.unread = s.unread) (hq : s'.queue = s.queue)
    (hs : s'.stage ≠ .serving → s.stage ≠ .serving ∨ s.queue = [] ∧ s.unread = none)
    (hc : complaints s'.printed = complaints s.printed) : Heeds all acts s' := by
  obtain ⟨h1, h2, h3, h4⟩ := h
  refine ⟨?_, ?_, ?_, ?_⟩
  · rwa [toCome, hu, hq]
  · rwa [toCome, hu, hc]
  · rwa [hu, hq]
  · intro hs'
    rw [hu, hq]
    exact (hs hs').elim h4 id

theorem serving (h : Heeds all acts s) (hu : s.unread.isSome) : s.stage = .serving := by
  by_contra hs
  simp [(h.nothing_left hs).2] at hu

theorem quit_not_mem (h : Heeds all acts s) (hu : s.unread.isSome) : .quit ∉ s.queue :=
  h.quit_last.resolve_right (by simp [Option.isSome_iff_ne_none.1 hu])

theorem endReading (h : Heeds all acts s) (hu : s.unread.isSome)
    (ha : s.toCome.filterMap Line.act? = []) (hc : s.toCome.filterMap Line.complaint? = []) :
    Heeds all acts s.endReading := by
  have h1 := h.acts_eq
  have h2 := h.complaints_eq
  rw [ha] at h1
  rw [hc] at h2
  refine ⟨?_, ?_, .inr ⟨rfl, s.queue, h.quit_not_mem hu, rfl⟩, fun hs => absurd (h.serving hu) hs⟩
  · simpa [Session.endReading, toCome, List.filterMap_cons] using h1
  · simpa [Session.endReading, toCome] using h2

theorem takeIn (h : Heeds all acts s) {line : Line} {rest : List UInt8} (hu : s.unread.isSome)
    (ht : s.toCome = line :: if line.ends then [] else upTo Line.ends (said rest)) :
    Heeds all acts (s.takeIn line rest) := by
  have hq := h.quit_not_mem hu
  have hs := h.serving hu
  have h1 := h.acts_eq
  have h2 := h.complaints_eq
  rw [ht] at h1 h2
  cases line with
  | garbled => exact h.endReading hu (by simp [ht]) (by simp [ht])
  | blank =>
    refine ⟨?_, ?_, .inl hq, fun hs' => absurd hs hs'⟩
    · simpa [Session.takeIn, toCome, List.filterMap_cons] using h1
    · simpa [Session.takeIn, toCome, List.filterMap_cons] using h2
  | bad cause =>
    refine ⟨?_, ?_, .inl hq, fun hs' => absurd hs hs'⟩
    · simpa [Session.takeIn, toCome, List.filterMap_cons] using h1
    · simpa [Session.takeIn, toCome, complaints, isComplaint_badLine] using h2
  | request r =>
    by_cases hr : r = .quit
    · subst hr
      exact h.endReading hu (by simp [ht]) (by simp [ht])
    · have he : (Line.request r).ends = false := by cases r <;> first | rfl | exact absurd rfl hr
      have hin : s.takeIn (.request r) rest =
          { s with unread := some rest, queue := s.queue ++ [r] } := by
        cases r <;> first | rfl | exact absurd rfl hr
      rw [hin]
      rw [he] at h1 h2
      refine ⟨?_, ?_, .inl ?_, fun hs' => absurd hs hs'⟩
      · cases ha : Act.ofRequest? r <;> simpa [toCome, List.filterMap_cons, ha] using h1
      · simpa [toCome, List.filterMap_cons] using h2
      · simpa using ⟨hq, fun h => hr h.symm⟩

theorem readLine (h : Heeds all acts s) {bytes : List UInt8} (hu : s.unread = some bytes) :
    Heeds all acts (s.readLine bytes) := by
  have hsome : s.unread.isSome := by simp [hu]
  have ht : s.toCome = upTo Line.ends (said bytes) := by simp [toCome, hu]
  obtain ⟨hn, hsaid⟩ | ⟨line, rest, hn, -, hsaid⟩ := said_cases bytes
  · rw [readLine_of_end s bytes hn]
    exact h.endReading hsome (by simp [ht, hsaid, upTo]) (by simp [ht, hsaid, upTo])
  · rw [readLine_of_line s bytes hn]
    refine h.takeIn hsome ?_
    rw [ht, hsaid, upTo_cons]

theorem quit (h : Heeds all acts s) {queue : List Feed.Request} (hq : s.queue = .quit :: queue) :
    Heeds all acts { s with queue, stage := .closing } := by
  obtain hn | ⟨hu, before, hn, he⟩ := h.quit_last
  · simp [hq] at hn
  · -- nothing stands before a request to quit that is at the head
    obtain rfl : before = [] := by
      cases before with
      | nil => rfl
      | cons r before =>
        obtain ⟨rfl, -⟩ : Feed.Request.quit = r ∧ _ := by simpa [he] using hq.symm
        simp at hn
    obtain rfl : queue = [] := by simpa [he] using hq.symm
    have h1 := h.acts_eq
    have ht : s.toCome = [] := by simp [toCome, hu]
    refine ⟨?_, h.complaints_eq, .inl (by simp), fun _ => ⟨rfl, hu⟩⟩
    simpa [hq, List.filterMap_cons, toCome] using h1

variable [KeyValueStore σ]

theorem applied (h : Heeds all acts s) {request : Feed.Request} {queue : List Feed.Request} {a : Act}
    {events : List Event} (hs : s.stage = .serving) (hq : s.queue = request :: queue)
    (ha : Act.ofRequest? request = some a)
    (he : ∀ e ∈ events, ∃ cause, e = Receiver.switchFailed cause) :
    Heeds all (acts ++ [a])
      (({ s with queue }.onReceiver (Receiver.act a s.receiver)).tell events) := by
  have h1 := h.acts_eq
  have h2 := h.complaints_eq
  have hevents : complaints events = [] := by
    refine complaints_eq_nil fun e hmem => ?_
    obtain ⟨cause, rfl⟩ := he e hmem
    exact isComplaint_switchFailed cause
  refine ⟨?_, ?_, ?_, fun hs' => absurd hs hs'⟩
  · simpa [hq, List.filterMap_cons, ha, toCome] using h1
  · simpa [hevents, toCome] using h2
  · obtain hn | ⟨hu, before, hn, hbefore⟩ := h.quit_last
    · refine .inl fun hmem => hn ?_
      rw [hq]
      exact List.mem_cons_of_mem _ hmem
    · cases before with
      | nil =>
        obtain ⟨rfl, -⟩ : request = .quit ∧ _ := by simpa [hq] using hbefore
        simp at ha
      | cons r before =>
        obtain ⟨-, rfl⟩ : request = r ∧ queue = _ := by simpa [hq] using hbefore
        exact .inr ⟨hu, before, fun hmem => hn (by simp [hmem]), rfl⟩

theorem step {happening : Happening σ} {as : List Act} (h : Heeds all acts s)
    (hstep : Step s happening as s') : Heeds all (acts ++ Receiver.requests as) s' := by
  have hwork : ∀ a : Act, a.isRequest = false →
      Heeds all (acts ++ Receiver.requests [a]) (s.onReceiver (Receiver.act a s.receiver)) := by
    intro a ha
    have hnil : Receiver.requests [a] = [] := by simp [Receiver.requests, ha]
    rw [hnil, List.append_nil]
    exact h.of_eq rfl rfl .inl (by simp)
  have hnil : Receiver.requests [] = [] := rfl
  cases hstep with
  | @applied request queue a events hs hq ha he =>
    have hsingle : Receiver.requests [a] = [a] := by
      simp [Receiver.requests, Act.isRequest_of_ofRequest? ha]
    rw [hsingle]
    exact h.applied hs hq ha he
  | worked => exact hwork .work rfl
  | answered => exact hwork _ rfl
  | read hs hu =>
    rw [hnil, List.append_nil]
    exact h.readLine hu
  | quit hs hq =>
    rw [hnil, List.append_nil]
    exact h.quit hq
  | outside | refused | missed =>
    rw [hnil, List.append_nil]
    exact h.of_eq rfl rfl .inl rfl
  | heard =>
    rw [hnil, List.append_nil]
    exact h.of_eq rfl rfl .inl (by simp [complaints, isComplaint])
  | finished hs =>
    rw [hnil, List.append_nil]
    refine h.of_eq rfl rfl (fun _ => .inl (by simp [hs])) ?_
    simp only [conclude, tell_printed, complaints_append, complaints_changes]
    simp [complaints, isComplaint]

end Heeds

variable [KeyValueStore σ]

def acts (s : Session σ) (course : List (Happening σ)) : List Act :=
  Run.notes happen toReceiver s course

theorem requests_acts_concat (s : Session σ) (course : List (Happening σ)) (h : Happening σ) :
    Receiver.requests (s.acts (course ++ [h])) =
      Receiver.requests (s.acts course) ++ Receiver.requests (toReceiver h (s.after course)) := by
  simp [acts, Receiver.requests, after]

theorem heeds_after (r : Receiver σ) (snapshot : Snapshot) (input : List UInt8)
    (course : List (Happening σ)) :
    Heeds (upTo Line.ends (said input))
      (Receiver.requests ((start r snapshot input).acts course))
      ((start r snapshot input).after course) := by
  induction course using List.reverseRecOn with
  | nil => exact ⟨rfl, rfl, .inl (by simp [start]), fun hs => absurd rfl hs⟩
  | append_singleton course happening ih =>
    rw [requests_acts_concat, after_append]
    exact ih.step (step_happen _ happening)

theorem receiver_read (s : Session σ) : (happen (.move .read) s).receiver = s.receiver := by
  have hstep := step_happen s (.move .read)
  generalize happen (.move .read) s = s', toReceiver (.move .read) s = as at hstep
  cases hstep with
  | refused => rfl
  | @read bytes hs hu =>
    obtain ⟨unread, queue, events, he, -⟩ := readLine_eq s bytes
    rw [he]
    rfl

/-- Reading changes nothing of the receiver. When a session has stopped, the receiver was asked what the
lines say, in their order, and the host was told of each bad line, up to the line with which reading
ended. That law holds up to the first request to quit, for every line that is not blank and no request,
if and only if each of these lines is text. -/
theorem heeds_lines_iff (r : Receiver σ) (snapshot : Snapshot) (input : List UInt8)
    (course : List (Happening σ)) :
    let s₀ := start r snapshot input
    let asked := Receiver.requests (s₀.acts course)
    let told := complaints (s₀.after course).printed
    let heard := upTo Line.isQuit (said input)
    let read := upTo Line.ends (said input)
    (∀ s : Session σ, (happen (.move .read) s).receiver = s.receiver) ∧
      ((s₀.after course).stage = .stopped →
        asked = read.filterMap Line.act? ∧ told = read.filterMap Line.complaint? ∧
          (asked = heard.filterMap Line.act? ∧ told.length = heard.countP Line.isFaulty ↔
            .garbled ∉ heard)) := by
  intro s₀ asked told heard read
  refine ⟨receiver_read, fun hs => ?_⟩
  have h := heeds_after r snapshot input course
  obtain ⟨hq, hu⟩ := h.nothing_left (by simp [s₀] at hs; simp [hs])
  have hasked : asked = read.filterMap Line.act? := by
    simpa [hq, toCome, hu] using h.acts_eq
  have htold : told = read.filterMap Line.complaint? := by
    simpa [toCome, hu] using h.complaints_eq
  refine ⟨hasked, htold, ?_⟩
  constructor
  · rintro ⟨-, hlen⟩ hmem
    have hle : told.length ≤ (heard.filterMap Line.complaint?).length := by
      rw [htold]
      exact ((upTo_ends_le (said input)).sublist.filterMap _).length_le
    have hcount := countP_isFaulty heard
    have hpos : 0 < heard.count .garbled := List.count_pos_iff.2 hmem
    omega
  · intro hn
    have hread : read = heard := upTo_of_not_mem hn
    rw [hasked, htold, hread, countP_isFaulty, List.count_eq_zero.2 hn]
    exact ⟨rfl, rfl⟩

/-- A line that is no request, a blank one, and a request. -/
theorem heeds_request_after_bad_line :
    let input := "x\n\n[\"unregistered\"]\n".toUTF8.data.toList
    let s₀ : Session Store.Entries :=
      start (.new Receiver.workerName .empty 0 default (.fixed true)) ⟨none, .unconfigured⟩ input
    let course : List (Happening Store.Entries) :=
      List.replicate 4 (.move .read) ++ [.move .input, .move .input, .move .finish]
    (s₀.after course).stage = .stopped ∧ .garbled ∉ upTo Line.isQuit (said input) ∧
      Receiver.requests (s₀.acts course) =
        (upTo Line.isQuit (said input)).filterMap Line.act? ∧
      (complaints (s₀.after course).printed).length = 1 := by
  intro input s₀ course
  have hs : (s₀.after course).stage = .stopped := by decide +kernel
  have hg : .garbled ∉ upTo Line.isQuit (said input) := by decide +kernel
  have hf : (upTo Line.isQuit (said input)).countP Line.isFaulty = 1 := by decide +kernel
  dsimp only [s₀] at hs ⊢
  obtain ⟨-, h⟩ := heeds_lines_iff (.new Receiver.workerName Store.Entries.empty 0 default (.fixed true))
    ⟨none, .unconfigured⟩ input course
  obtain ⟨hasked, htold⟩ := (h hs).2.2.2 hg
  exact ⟨hs, hg, hasked, htold.trans hf⟩

/-- A line that is no text, and a request, which is not read. -/
theorem garbled_line_ends_reading :
    let input := 255 :: "\n[\"unregistered\"]\n".toUTF8.data.toList
    let s₀ : Session Store.Entries :=
      start (.new Receiver.workerName .empty 0 default (.fixed true)) ⟨none, .unconfigured⟩ input
    let course : List (Happening Store.Entries) := [.move .read, .move .input, .move .finish]
    (s₀.after course).stage = .stopped ∧
      upTo Line.isQuit (said input) = [.garbled, .request (.unregistered "default")] ∧
      Receiver.requests (s₀.acts course) = [] ∧
      (s₀.after course).printed = [.ready ⟨none, .unconfigured⟩, .stopped 0] := by
  intro input s₀ course
  refine ⟨?_, ?_, ?_, ?_⟩
  · decide +kernel
  · decide +kernel
  · refine List.eq_nil_of_length_eq_zero ?_
    decide +kernel
  · decide +kernel

end Session

end PushKeeper.Daemon
