import PushKeeper.Daemon.Run
import PushKeeper.Proofs.Daemon.Input
import PushKeeper.Proofs.Daemon.Told
import Mathlib.Data.List.Perm.Subperm

namespace PushKeeper

open Registration (Snapshot)
open Store (KeyValueStore)

namespace Feed

@[simp] def Event.isFrame : Event → Bool
  | ready _ => true
  | stopped _ => true
  | _ => false

theorem isFrame_of_mem_alertsSince {before after : List Receiver.Notice} {e : Event}
    (he : e ∈ Receiver.alertsSince before after) : e.isFrame = false := by
  obtain ⟨kind, rfl⟩ := Receiver.exists_alert_of_mem he
  rfl

end Feed

namespace Daemon

open Feed (Event changes)
open Line (upTo)
open Receiver (Act Job)
open Store (Disk Mounted on_bind)

namespace Session

variable {σ : Type} {s s' : Session σ}

section

variable [KeyValueStore σ] {happening : Happening σ} {acts : List Act}

theorem printed_step (hstep : Step s happening acts s') (hs : s'.stage ≠ .stopped) :
    ∃ events, s'.printed = s.printed ++ events ∧ ∀ e ∈ events, e.isFrame = false := by
  cases hstep with
  | outside | refused | quit | missed => exact ⟨[], by simp [beside], by simp⟩
  | @read bytes =>
    obtain ⟨unread, queue, events, he, hbad⟩ := readLine_eq s bytes
    refine ⟨events, by rw [he]; rfl, fun e hmem => ?_⟩
    obtain ⟨cause, rfl⟩ := hbad e hmem
    rfl
  | @applied request queue a events hs hq ha hfail =>
    refine ⟨Receiver.alertsSince s.receiver.history (Receiver.act a s.receiver).history ++ events,
      by simp, fun e hmem => ?_⟩
    obtain hmem | hmem := List.mem_append.1 hmem
    · exact Feed.isFrame_of_mem_alertsSince hmem
    · obtain ⟨cause, rfl⟩ := hfail e hmem
      rfl
  | heard => exact ⟨_, tell_printed .., by simp⟩
  | worked | answered =>
    exact ⟨_, onReceiver_printed .., fun e hmem => Feed.isFrame_of_mem_alertsSince hmem⟩
  | finished => simp [conclude] at hs

theorem stage_ne_of_happen (h : (happen happening s).stage ≠ .stopped) : s.stage ≠ .stopped := by
  intro hs
  obtain ⟨store, clock, he⟩ := happen_of_stopped hs happening
  rw [he] at h
  exact h hs

theorem printed_after {course : List (Happening σ)} (h : (s.after course).stage ≠ .stopped) :
    ∃ events, (s.after course).printed = s.printed ++ events ∧ ∀ e ∈ events, e.isFrame = false := by
  induction course using List.reverseRecOn with
  | nil => exact ⟨[], by simp, by simp⟩
  | append_singleton course happening ih =>
    rw [after_append, after_cons, after_nil] at h ⊢
    obtain ⟨events, he, hf⟩ := ih (stage_ne_of_happen h)
    obtain ⟨more, hmore, hf'⟩ := printed_step (step_happen (s.after course) happening) h
    refine ⟨events ++ more, by rw [hmore, he, List.append_assoc], ?_⟩
    simpa [or_imp, forall_and] using ⟨hf, hf'⟩

theorem printed_of_stopped {r : Receiver σ} {snapshot : Snapshot} {input : List UInt8}
    {course : List (Happening σ)} (h : ((start r snapshot input).after course).stage = .stopped) :
    ∃ between, ((start r snapshot input).after course).printed =
        .ready snapshot :: between ++
          [.stopped ((start r snapshot input).after course).receiver.worker.dropped.toNat] ∧
      ∀ e ∈ between, e.isFrame = false := by
  obtain ⟨before, rest, store, clock, -, hclosing, -, he⟩ :=
    exists_finish (s := start r snapshot input) (by simp [start]) h
  have hstage : ((start r snapshot input).after before).stage ≠ .stopped := by simp [hclosing]
  obtain ⟨events, hprinted, hf⟩ := printed_after hstage
  have hprinted : _ = .ready snapshot :: events := hprinted
  let last := (start r snapshot input).after before
  rw [he]
  refine ⟨events ++ (remaining last.receiver.bus last.position).map .registrationChanged, ?_, ?_⟩
  · simp [beside, conclude, hprinted, last]
  · intro e hmem
    obtain hmem | hmem := List.mem_append.1 hmem
    · exact hf e hmem
    · obtain ⟨snapshot, -, rfl⟩ := List.mem_map.1 hmem
      rfl

theorem rest_of_stopped (h : Told s) (h₀ : s.stage ≠ .stopped) (course : List (Happening σ))
    (hs : (s.after course).stage = .stopped) :
    (s.after course).receiver.worker.pending = none ∧
      (s.after course).receiver.worker.current? = none ∧
      (s.after course).receiver.inFlight = none := by
  have hr : Receiver.Steady (s.after course).receiver := (h.after course).steady
  obtain ⟨before, rest, store, clock, -, -, hidle, he⟩ := exists_finish h₀ hs
  have hidle : (s.after course).receiver.worker.idle := by
    rw [he]
    exact hidle
  exact hr.rest_of_idle hidle

def tasks (seen : Act → Receiver σ → Option Job) (s : Session σ) (course : List (Happening σ)) :
    List Job :=
  Run.notes happen (fun h s => (toReceiver h s).filterMap (seen · s.receiver)) s course

theorem tasks_concat (seen : Act → Receiver σ → Option Job) (s : Session σ)
    (course : List (Happening σ)) (h : Happening σ) :
    tasks seen s (course ++ [h]) = tasks seen s course ++
      (toReceiver h (s.after course)).filterMap (seen · (s.after course).receiver) := by
  simp [tasks, after]

theorem worker_step (hstep : Step s happening acts s') :
    (acts = [] ∧ s'.receiver.worker = s.receiver.worker) ∨
      ∃ a, acts = [a] ∧ s'.receiver.worker = (Receiver.act a s.receiver).worker := by
  cases hstep with
  | outside | refused | quit | heard | missed | finished => exact .inl ⟨rfl, rfl⟩
  | @read bytes =>
    obtain ⟨unread, queue, events, he, -⟩ := readLine_eq s bytes
    exact .inl ⟨rfl, by rw [he]; rfl⟩
  | applied | worked | answered => exact .inr ⟨_, rfl, rfl⟩

theorem exists_accounts {name : String} (h : Told s) (hw : s.receiver.worker = .new name)
    (course : List (Happening σ)) :
    ∃ j, (s.after course).receiver.worker.Accounts j ∧
      Worker.submissions j = tasks Act.job? s course ∧
        Worker.ends j = tasks Act.ended? s course := by
  induction course using List.reverseRecOn with
  | nil => exact ⟨[], hw ▸ Worker.accounts_new name, rfl, rfl⟩
  | append_singleton course happening ih =>
    obtain ⟨j, hj, hsub, hend⟩ := ih
    have hr : Receiver.Steady (s.after course).receiver := (h.after course).steady
    have hstep := step_happen (s.after course) happening
    rw [tasks_concat, tasks_concat, after_append, after_cons, after_nil]
    obtain ⟨hacts, hw'⟩ | ⟨a, hacts, hw'⟩ := worker_step hstep
    · rw [hacts, hw']
      exact ⟨j, hj, by simpa using hsub, by simpa using hend⟩
    · have hone : ∀ f : Act → Option Job, [a].filterMap f = (f a).toList := by
        intro f
        cases h : f a <;> simp [h]
      rw [hacts, hw', Receiver.worker_act hr a, hone, hone]
      refine ⟨_, hj.append_journal (Receiver.toWorker a _), ?_, ?_⟩
      · rw [Worker.submissions_append, Worker.submissions_journal, hr.closed_eq,
          Receiver.accepted_toWorker, hsub]
        rfl
      · rw [Worker.ends_append, Receiver.ends_toWorker, hend]

theorem dropped_eq {name : String} (h : Told s) (hw : s.receiver.worker = .new name)
    (course : List (Happening σ)) (hp : (s.after course).receiver.worker.pending = none)
    (hc : (s.after course).receiver.worker.current? = none) :
    (tasks Act.ended? s course).Subperm (tasks Act.job? s course) ∧
      (s.after course).receiver.worker.dropped =
        UInt64.ofNat
          ((tasks Act.job? s course).length - (tasks Act.ended? s course).length) := by
  obtain ⟨j, hj, hsub, hend⟩ := exists_accounts h hw course
  have hperm : (tasks Act.job? s course).Perm (tasks Act.ended? s course ++ Worker.drops j) := by
    simpa [hp, hc, hsub, hend] using hj.perm_fates
  refine ⟨(List.sublist_append_left _ _).subperm.trans hperm.symm.subperm, ?_⟩
  rw [hj.dropped_eq, hperm.length_eq, List.length_append, Nat.add_sub_cancel_left]

theorem length_tasks_le (s : Session σ) (course : List (Happening σ)) :
    (tasks Act.job? s course).length ≤ (Receiver.requests (s.acts course)).length := by
  induction course using List.reverseRecOn with
  | nil => exact Nat.le_refl 0
  | append_singleton course happening ih =>
    have hle : ((toReceiver happening (s.after course)).filterMap
        (·.job? (s.after course).receiver)).length ≤
        (Receiver.requests (toReceiver happening (s.after course))).length := by
      rw [List.length_filterMap_eq_countP, Receiver.requests, ← List.countP_eq_length_filter]
      refine List.countP_mono_left fun a _ ha => ?_
      obtain ⟨job, hj⟩ := Option.isSome_iff_exists.1 ha
      exact Act.isRequest_of_job? hj
    rw [tasks_concat, requests_acts_concat, List.length_append, List.length_append]
    omega

theorem length_said_le (input : List UInt8) : (said input).length ≤ input.length := by
  induction hn : input.length using Nat.strongRecOn generalizing input with
  | _ n ih =>
    obtain ⟨-, hsaid⟩ | ⟨line, rest, -, hlt, hsaid⟩ := said_cases input
    · simp [hsaid]
    · have hrest := ih rest.length (by omega) rest rfl
      rw [hsaid, List.length_cons]
      omega

theorem length_submitted_le (r : Receiver σ) (snapshot : Snapshot) (input : List UInt8)
    (course : List (Happening σ)) :
    (tasks Act.job? (start r snapshot input) course).length ≤ input.length := by
  have hasked := congrArg List.length (heeds_after r snapshot input course).acts_eq
  have hall : ((upTo Line.ends (said input)).filterMap Line.act?).length ≤
      (upTo Line.ends (said input)).length := List.length_filterMap_le ..
  have hupTo := (Line.upTo_prefix_self Line.ends (said input)).length_le
  have hsaid := length_said_le input
  have htasks := length_tasks_le (start r snapshot input) course
  simp only [List.length_append] at hasked
  omega

end

def Agree (unread unread' : Option (List UInt8)) : Prop :=
  unread = none ∧ unread' = none ∨
    ∃ bytes bytes', unread = some bytes ∧ unread' = some bytes' ∧
      .request .quit ∈ said bytes ∧ upTo Line.isQuit (said bytes') = upTo Line.isQuit (said bytes)

theorem takeIn_eq (s : Session σ) (line : Line) (rest : List UInt8)
    (unread : Option (List UInt8)) :
    ({ s with unread }).takeIn line rest =
      { s.takeIn line [] with unread := if line.ends then none else some rest } := by
  cases line with
  | request r => cases r <;> rfl
  | _ => rfl

theorem agree_takeIn {line : Line} {rest rest' : List UInt8}
    (hq : .request .quit ∈ line :: said rest)
    (h : (if line.isQuit then [] else upTo Line.isQuit (said rest')) =
      if line.isQuit then [] else upTo Line.isQuit (said rest)) :
    Agree (if line.ends then none else some rest) (if line.ends then none else some rest') := by
  cases he : line.ends with
  | true => exact .inl ⟨rfl, rfl⟩
  | false =>
    have hl : line ≠ .request .quit := by
      rintro rfl
      simp at he
    have hn : line.isQuit = false := Line.isQuit_of_ends he
    rw [hn] at h
    refine .inr ⟨rest, rest', rfl, rfl, ?_, h⟩
    exact (List.mem_cons.1 hq).resolve_left (Ne.symm hl)

theorem Agree.readLine {bytes bytes' : List UInt8} (hq : .request .quit ∈ said bytes)
    (h : upTo Line.isQuit (said bytes') = upTo Line.isQuit (said bytes)) (s : Session σ)
    (unread : Option (List UInt8)) :
    ∃ unread', ({ s with unread }).readLine bytes' = { s.readLine bytes with unread := unread' } ∧
      Agree (s.readLine bytes).unread unread' := by
  obtain ⟨-, hsaid⟩ | ⟨line, rest, hn, -, hsaid⟩ := said_cases bytes
  · simp [hsaid] at hq
  · obtain ⟨-, hsaid'⟩ | ⟨line', rest', hn', -, hsaid'⟩ := said_cases bytes'
    · simp [hsaid, hsaid', upTo_cons, upTo] at h
    · -- the same line is read in both, and unless it ends the reading the rests agree
      rw [hsaid, hsaid', upTo_cons, upTo_cons] at h
      obtain ⟨hl, hrest⟩ := List.cons.inj h
      rw [hl] at hrest
      rw [hsaid] at hq
      have hr : s.readLine bytes = _ :=
        (readLine_of_line s bytes hn).trans (takeIn_eq s (.ofBytes line) rest s.unread)
      have hr' : ({ s with unread }).readLine bytes' = _ :=
        (readLine_of_line _ bytes' hn').trans (takeIn_eq s (.ofBytes line') rest' unread)
      rw [hr, hr', hl]
      exact ⟨_, rfl, agree_takeIn hq hrest⟩

variable [KeyValueStore σ]

theorem step?_of_ne_read {m : Move} (hm : m ≠ .read) (s : Session σ)
    (unread : Option (List UInt8)) :
    ({ s with unread }).step? m = (s.step? m).map ({ · with unread }) := by
  cases m with
  | read => exact absurd rfl hm
  | input =>
    simp only [step?]
    split
    · rename_i request queue hs hq
      cases request <;> rfl
    · rfl
  | event =>
    simp only [step?]
    split
    · split
      · rfl
      · rename_i received position _ _
        cases received <;> rfl
    · rfl
  | work | answer | finish =>
    simp only [step?]
    split <;> rfl

theorem Agree.read {unread : Option (List UInt8)} (h : Agree s.unread unread) :
    ∃ unread', Session.happen (.move .read) { s with unread } =
        { Session.happen (.move .read) s with unread := unread' } ∧
      Agree (Session.happen (.move .read) s).unread unread' := by
  by_cases hstop : (s.stage = .stopped || queueCapacity < s.queue.length) = true
  · exact ⟨unread, by simp [Session.happen, step?, hstop], by simpa [Session.happen, step?, hstop]⟩
  · obtain ⟨hu, rfl⟩ | ⟨bytes, bytes', hu, rfl, hq, hupTo⟩ := h
    · exact ⟨none, by simp [Session.happen, step?, hu], by simp [Session.happen, step?, hu, Agree]⟩
    · obtain ⟨unread', he, ha⟩ := Agree.readLine hq hupTo s (some bytes')
      have hread : Session.happen (.move .read) s = s.readLine bytes := by
        simp [Session.happen, step?, hstop, hu]
      have hread' : Session.happen (.move .read) { s with unread := some bytes' } =
          ({ s with unread := some bytes' } : Session σ).readLine bytes' := by
        simp [Session.happen, step?, hstop]
      rw [hread, hread', he]
      exact ⟨unread', rfl, ha⟩

theorem Agree.happen {unread : Option (List UInt8)} (h : Agree s.unread unread)
    (happening : Happening σ) :
    ∃ unread', Session.happen happening { s with unread } =
        { Session.happen happening s with unread := unread' } ∧
      Agree (Session.happen happening s).unread unread' := by
  cases happening with
  | outside store clock => exact ⟨unread, rfl, h⟩
  | move m =>
    by_cases hm : m = .read
    · subst hm
      exact h.read
    · have hstep := step?_of_ne_read hm s unread
      cases hs : s.step? m with
      | none =>
        rw [hs] at hstep
        exact ⟨unread, by simp [Session.happen, hs, hstep], by simpa [Session.happen, hs]⟩
      | some s' =>
        rw [hs] at hstep
        rw [happen_of_step? hs, happen_of_step? hstep]
        -- the case in which the unread input is put back as it was
        have hsame : s.step? m = _ := step?_of_ne_read hm s s.unread
        rw [hs, Option.map_some] at hsame
        have hu : s'.unread = s.unread := (congrArg Session.unread (Option.some.inj hsame) :)
        exact ⟨unread, rfl, hu ▸ h⟩

theorem Agree.after {unread : Option (List UInt8)} (h : Agree s.unread unread)
    (course : List (Happening σ)) :
    ∃ unread', ({ s with unread }).after course = { s.after course with unread := unread' } ∧
      Agree (s.after course).unread unread' := by
  induction course using List.reverseRecOn with
  | nil => exact ⟨unread, rfl, h⟩
  | append_singleton course happening ih =>
    obtain ⟨unread', he, ha⟩ := ih
    obtain ⟨unread'', he', ha'⟩ := ha.happen happening
    refine ⟨unread'', ?_, ?_⟩
    · rw [after_append, after_append, he]
      exact he'
    · rw [after_append]
      exact ha'

theorem after_of_agree (r : Receiver σ) (snapshot : Snapshot) {input input' : List UInt8}
    (hq : .request .quit ∈ said input)
    (h : upTo Line.isQuit (said input') = upTo Line.isQuit (said input))
    (course : List (Happening σ)) :
    ∃ unread, (start r snapshot input').after course =
      { (start r snapshot input).after course with unread } := by
  have ha : Agree (start r snapshot input).unread (some input') :=
    .inr ⟨input, input', rfl, rfl, hq, h⟩
  obtain ⟨unread, he, -⟩ := ha.after course
  exact ⟨unread, he⟩

end Session

variable {a : Arguments} {m : Machine} {opened : Opened} {disk : Disk}

theorem snapshot_of_openAll (h : (openAll a).on m.disk = (.ok opened, disk)) :
    (opened.receiver { m with disk }).snapshot = .ok opened.snapshot := by
  simp only [openAll, on_bind, Store.on_get] at h
  split at h
  · rename_i backing disk' hopen
    simp only [Store.on_writing] at h
    split at h
    · rename_i found hrest
      obtain ⟨rfl, rfl⟩ : found = opened ∧ disk' = disk := by simpa using h
      cases hservices : Services.ofSettings (Settings.load m.disk.tree a.configDir).hooks with
      | error e => simp [hservices, bind, Except.bind] at hrest
      | ok services =>
        cases hsnapshot : Store.Values.snapshot (⟨backing, disk'⟩ : Mounted) with
        | error e => simp [hservices, hsnapshot, bind, Except.bind] at hrest
        | ok snapshot =>
          obtain rfl : _ = found := by
            simpa [hservices, hsnapshot, bind, Except.bind, pure, Except.pure] using hrest
          exact hsnapshot
    · simp at h
  · simp at h

theorem exists_serve (h : (openAll a).on (prepareLogs m).disk = (.ok opened, disk))
    (input : List UInt8) :
    ∃ course, (serve a input m).1.printed =
      ((Session.start (opened.receiver { prepareLogs m with disk }) opened.snapshot input).after
        course).printed := by
  obtain ⟨course, hc⟩ := Session.exists_runWith opened.services.respond (Session.moveBound input)
    (Session.start (opened.receiver { prepareLogs m with disk }) opened.snapshot input)
    (prepareLogs m).environment
  refine ⟨course, ?_⟩
  rw [← hc]
  simp only [serve, h]
  rfl

/-- A session that has started, whatever its input is, whatever the commands answer or do to the files,
and in whatever order its moves come. Once it has stopped,

* the host was told the stored snapshot first, that it has stopped last, and neither in between;
* the changes that the host was told are published ones, in their order, none of them twice;
* no request is left and no task, and as many tasks were dropped as were submitted and did not run to
  their end. The count could wrap around only with an input of as many bytes.

At any time it is as it would be with other lines after the first request to quit. -/
theorem session_shape {a : Arguments} {m : Machine} {opened : Opened} {disk : Disk}
    (h : (openAll a).on (prepareLogs m).disk = (.ok opened, disk)) (input : List UInt8) :
    let r := opened.receiver { prepareLogs m with disk }
    let s₀ := Session.start r opened.snapshot input
    r.snapshot = .ok opened.snapshot ∧
      (∃ course, (serve a input m).1.printed = (s₀.after course).printed) ∧
      ∀ course : List (Session.Happening Mounted),
        let s := s₀.after course
        let w := s.receiver.worker
        let submitted := Session.tasks Act.job? s₀ course
        let completed := Session.tasks Act.ended? s₀ course
        (s.stage = .stopped →
          (∃ between, s.printed =
              .ready opened.snapshot :: between ++ [.stopped w.dropped.toNat] ∧
            ∀ e ∈ between, e.isFrame = false) ∧
          (changes s.printed).Sublist s.receiver.published ∧
          (s.queue = [] ∧ w.pending = none ∧ w.current? = none ∧ s.receiver.inFlight = none) ∧
          completed.Subperm submitted ∧ submitted.length ≤ input.length ∧
          w.dropped = UInt64.ofNat (submitted.length - completed.length)) ∧
        (.request .quit ∈ said input →
          ∀ input', upTo Line.isQuit (said input') = upTo Line.isQuit (said input) →
            ∃ unread, (Session.start r opened.snapshot input').after course = { s with unread }) := by
  intro r s₀
  refine ⟨snapshot_of_openAll h, exists_serve h input, ?_⟩
  intro course s w submitted completed
  refine ⟨fun hs => ?_, fun hq input' hinput => ?_⟩
  · have htold : Session.Told s₀ :=
      Session.told_start (Receiver.steady_new ..) rfl opened.snapshot input
    have hserving : s₀.stage ≠ .stopped := by simp [s₀, Session.start]
    obtain ⟨hp, hc, hf⟩ := Session.rest_of_stopped htold hserving course hs
    obtain ⟨hsub, hdropped⟩ := Session.dropped_eq htold rfl course hp hc
    have hqueue := ((Session.heeds_after r opened.snapshot input course).nothing_left (by
      rw [hs]
      simp)).1
    have hfollows := (htold.after course).follows
    exact ⟨Session.printed_of_stopped hs, hfollows.sublist.trans (List.take_sublist _ _),
      ⟨hqueue, hp, hc, hf⟩, hsub, Session.length_submitted_le r opened.snapshot input course,
      hdropped⟩
  · exact Session.after_of_agree r opened.snapshot hq hinput course

/-- A session that is asked to quit at once, and a line that comes too late. -/
theorem shape_of_quit :
    let settings := "hooks = [[\"r\"], [\"e\"], [\"l\"]]\n"
    let tree : Files.Tree :=
      ⟨[(["c"], .directory), (["c", "config.toml"], .file 0 settings.toUTF8)], 1, [], []⟩
    let m : Machine := ⟨⟨tree, []⟩, [], 0, "/d"⟩
    let a : Arguments := ⟨"/c", some ":memory:", false⟩
    let line := "[\"quit\"]".toUTF8.data.toList
    let late := "x\n".toUTF8.data.toList
    let input := line ++ 10 :: late
    let course : List (Session.Happening Mounted) := [.move .read, .move .input, .move .finish]
    ∃ opened disk, (openAll a).on (prepareLogs m).disk = (.ok opened, disk) ∧
      let r := opened.receiver { prepareLogs m with disk }
      let s := (Session.start r opened.snapshot input).after course
      r.snapshot = .ok opened.snapshot ∧ s.stage = .stopped ∧
        (∃ between, s.printed =
            .ready opened.snapshot :: between ++ [.stopped s.receiver.worker.dropped.toNat] ∧
          ∀ e ∈ between, e.isFrame = false) ∧
        ∃ unread, (Session.start r opened.snapshot (line ++ [10])).after course =
          { s with unread } := by
  intro settings tree m a line late input course
  have hok : ((openAll a).on (prepareLogs m).disk).1.toOption.isSome := by decide +kernel
  have hnext : nextLine? input = some (chomp line, late) :=
    nextLine?_append (by decide +kernel) late
  have hline : Line.ofBytes (chomp line) = .request .quit := by decide +kernel
  have hsaid : .request .quit ∈ said input := by decide +kernel
  have hupTo : upTo Line.isQuit (said (line ++ [10])) = upTo Line.isQuit (said input) := by
    decide +kernel
  rcases hopen : (openAll a).on (prepareLogs m).disk with ⟨_ | opened, disk⟩
  · simp [hopen, Except.toOption] at hok
  · refine ⟨opened, disk, rfl, ?_⟩
    intro r s
    have hread : (Session.start r opened.snapshot input).readLine input =
        (Session.start r opened.snapshot input).endReading := by
      rw [Session.readLine_of_line _ _ hnext, hline]
      rfl
    have hs : s.stage = .stopped := by
      have hstep : (Session.start r opened.snapshot input).step? .read = some _ :=
        congrArg some hread
      simp only [s, course, Session.after_cons, Session.happen_of_step? hstep]
      rfl
    obtain ⟨hsnapshot, -, hshape⟩ := session_shape hopen input
    obtain ⟨hstop, hquit⟩ := hshape course
    exact ⟨hsnapshot, hs, (hstop hs).1, hquit hsaid (line ++ [10]) hupTo⟩

end Daemon

end PushKeeper
