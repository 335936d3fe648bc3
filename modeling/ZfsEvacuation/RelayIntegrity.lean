import ZfsEvacuation.RelayTask
import ZfsEvacuation.GuardedRun
import Mathlib.Data.List.Infix

/-!
# What a relay hands on

The bytes between the two connections are in the hands of the reader, in the queue or in the
write of the task. Nothing else happens to them, so the target gets a beginning of what was
read, and all of it if the task returns without an error.
-/
namespace ZfsEvacuation.RelayTask
open GuardedRun

variable {peers : Peers} {s s' : State} {a : Act}

@[simp] theorem setAt_self {α : Type} (f : Role → α) (role : Role) (x : α) :
    setAt f role x role = x := by
  simp [setAt]

theorem setAt_other {α : Type} (f : Role → α) {role r : Role} (x : α) (h : r ≠ role) :
    setAt f role x r = f r := by
  simp [setAt, h]

/-- The reader will send nothing more. -/
def Reader.closed : Reader → Bool
  | .finished _ | .joinError _ => true
  | _ => false

/-! ## One step -/

/-- All that one step can do. -/
inductive Move (peers : Peers) (s : State) : State → Prop
  | around (backlog : Role → List Conn) (now : Nat) : Move peers s { s with backlog, now }
  | acceptSource (c : Conn) (backlog : Role → List Conn) (stage : s.stage = .acceptingSource)
      (admitted : admits (peers .backup) c = true) :
      Move peers s { s with
        stage := .acceptingTarget, sourceConnected := true, reader := some .reading, backlog
        served := setAt s.served .backup (s.served .backup ++ [c]), lastActivity := s.now }
  | acceptTarget (c : Conn) (backlog : Role → List Conn) (stage : s.stage = .acceptingTarget)
      (admitted : admits (peers .restore) c = true) :
      Move peers s { s with
        stage := .receiving, backlog
        served := setAt s.served .restore (s.served .restore ++ [c]), lastActivity := s.now }
  | receive (chunk : List UInt8) (rest : List (List UInt8)) (stage : s.stage = .receiving)
      (queue : s.queue = chunk :: rest) :
      Move peers s { s with stage := .writing chunk chunk, queue := rest }
  | drained (r : Reader) (stage : s.stage = .receiving) (queue : s.queue = [])
      (reader : s.reader = some r) (closed : r.closed = true) :
      Move peers s { s with stage := .joining, queue := [] }
  | write (chunk rest : List UInt8) (n : Nat) (stage : s.stage = .writing chunk rest) :
      Move peers s { s with
        stage := .writing chunk (rest.drop n), delivered := s.delivered ++ rest.take n }
  | counted (chunk : List UInt8) (stage : s.stage = .writing chunk []) :
      Move peers s { s with
        stage := .receiving, total := (s.total + chunk.length) % 2 ^ 64
        bytes := (s.total + chunk.length) % 2 ^ 64, lastActivity := s.now }
  | joined (stage : s.stage = .joining) (reader : s.reader = some (.finished (.ok ()))) :
      Move peers s { s with stage := .closing }
  | returned (stage : s.stage = .closing) (some : s.total ≠ 0) :
      Move peers s (s.finish (.ok s.total))
  | failed (e : Error) (stage : s.stage.over = false) : Move peers s (s.finish (.error e))
  | aborted (stage : s.stage.over = false) :
      Move peers s { s with stage := .aborted, queue := [], backlog := fun _ => [] }
  | read (n : Nat) (reader : s.reader = some .reading) :
      Move peers s { s with
        reader := some (.sending (s.left.take n)), taken := s.taken ++ s.left.take n
        lastActivity := s.now }
  | ended (reader : s.reader = some .reading) (eof : s.left = []) :
      Move peers s { s with reader := some (.finished (.ok ())) }
  | readError (e : Error) (reader : s.reader = some .reading) :
      Move peers s { s with reader := some (.finished (.error e)) }
  | push (chunk : List UInt8) (reader : s.reader = some (.sending chunk))
      (stage : s.stage.over = false) :
      Move peers s { s with reader := some .reading, queue := s.queue ++ [chunk] }
  | writerGone (chunk : List UInt8) (e : Error) (reader : s.reader = some (.sending chunk))
      (stage : s.stage.over = true) :
      Move peers s { s with reader := some (.finished (.error e)) }
  | joinError (r : Reader) (text : String) (reader : s.reader = some r)
      (running : r.closed = false) : Move peers s { s with reader := some (.joinError text) }

theorem accept_moves {role : Role} {kept : State → State} {io : Io}
    (hopen : s.stage.over = false)
    (hkept : ∀ c backlog, admits (peers role) c = true →
      Move peers s (kept { s with
        backlog, served := setAt s.served role (s.served role ++ [c]), lastActivity := s.now }))
    (h : s.acceptFrom peers role kept io = some s') : Move peers s s' := by
  cases io with
  | error text =>
    obtain rfl := Option.some.inj h
    exact .failed _ hopen
  | ok n =>
    simp only [State.acceptFrom] at h
    cases hbacklog : s.backlog role with
    | nil =>
      rw [hbacklog] at h
      cases h
    | cons c rest =>
      simp only [hbacklog] at h
      split_ifs at h with hadmits
      · obtain rfl := Option.some.inj h
        exact hkept c _ hadmits
      · obtain rfl := Option.some.inj h
        exact .around _ s.now

theorem task_moves {io : Io} (h : s.taskStep peers io = some s') : Move peers s s' := by
  unfold State.taskStep at h
  cases hstage : s.stage with
  | acceptingSource =>
    simp only [hstage] at h
    exact accept_moves (by rw [hstage]; rfl) (fun c b hc => .acceptSource c b hstage hc) h
  | acceptingTarget =>
    simp only [hstage] at h
    exact accept_moves (by rw [hstage]; rfl) (fun c b hc => .acceptTarget c b hstage hc) h
  | receiving =>
    simp only [hstage] at h
    cases hqueue : s.queue with
    | nil =>
      simp only [hqueue] at h
      split at h
      · obtain rfl := Option.some.inj h
        exact .drained _ hstage hqueue ‹_› rfl
      · obtain rfl := Option.some.inj h
        exact .drained _ hstage hqueue ‹_› rfl
      · cases h
    | cons chunk rest =>
      simp only [hqueue] at h
      obtain rfl := Option.some.inj h
      exact .receive chunk rest hstage hqueue
  | writing chunk rest =>
    have hopen : s.stage.over = false := by rw [hstage]; rfl
    cases rest with
    | nil =>
      simp only [hstage] at h
      obtain rfl := Option.some.inj h
      exact .counted chunk hstage
    | cons b bs =>
      simp only [hstage] at h
      rcases io with (_ | n) | text
      · obtain rfl := Option.some.inj h
        exact .failed _ hopen
      · simp only [] at h
        split_ifs at h
        obtain rfl := Option.some.inj h
        exact .write chunk (b :: bs) (n + 1) hstage
      · obtain rfl := Option.some.inj h
        exact .failed _ hopen
  | joining =>
    have hopen : s.stage.over = false := by rw [hstage]; rfl
    simp only [hstage] at h
    split at h
    · obtain rfl := Option.some.inj h
      exact .joined hstage ‹_›
    · obtain rfl := Option.some.inj h
      exact .failed _ hopen
    · obtain rfl := Option.some.inj h
      exact .failed _ hopen
    · cases h
  | closing =>
    have hopen : s.stage.over = false := by rw [hstage]; rfl
    simp only [hstage] at h
    split_ifs at h with htotal
    · obtain rfl := Option.some.inj h
      exact .failed _ hopen
    · obtain rfl := Option.some.inj h
      exact .returned hstage htotal
  | done r => simp [hstage] at h
  | aborted => simp [hstage] at h

theorem reader_moves {io : Io} (h : s.readerStep io = some s') : Move peers s s' := by
  unfold State.readerStep at h
  cases hreader : s.reader with
  | none => simp [hreader] at h
  | some r =>
    cases r with
    | reading =>
      simp only [hreader] at h
      rcases io with (_ | n) | text
      · simp only [] at h
        split_ifs at h with hleft
        obtain rfl := Option.some.inj h
        exact .ended hreader hleft
      · simp only [] at h
        split_ifs at h
        obtain rfl := Option.some.inj h
        exact .read (n + 1) hreader
      · obtain rfl := Option.some.inj h
        exact .readError _ hreader
    | sending chunk =>
      simp only [hreader] at h
      split_ifs at h with hover hroom
      · obtain rfl := Option.some.inj h
        exact .writerGone chunk _ hreader hover
      · obtain rfl := Option.some.inj h
        exact .push chunk hreader (by simpa using hover)
    | finished r => simp [hreader] at h
    | joinError text => simp [hreader] at h

theorem step_moves (h : State.step peers s a = some s') : Move peers s s' := by
  cases a with
  | connect role c =>
    simp only [State.step] at h
    split_ifs at h
    obtain rfl := Option.some.inj h
    exact .around _ s.now
  | tick secs =>
    obtain rfl := Option.some.inj h
    exact .around s.backlog _
  | task io => exact task_moves h
  | reader io => exact reader_moves h
  | joinError text =>
    simp only [State.step] at h
    split at h
    · obtain rfl := Option.some.inj h
      exact .joinError _ text ‹_› rfl
    · obtain rfl := Option.some.inj h
      exact .joinError _ text ‹_› rfl
    · cases h
  | abort =>
    simp only [State.step] at h
    split_ifs at h with hover
    obtain rfl := Option.some.inj h
    exact .aborted (by simpa using hover)

/-! ## The ports -/

/-- The task has both of its connections. -/
def Stage.streaming : Stage → Bool
  | .receiving | .writing _ _ | .joining | .closing => true
  | _ => false

/-- Each port serves one connection at most, the source before the target. -/
structure Ports (peers : Peers) (s : State) : Prop where
  few : ∀ role, (s.served role).length ≤ 1
  allowed : ∀ role, ∀ c ∈ s.served role, admits (peers role) c = true
  noSource : s.stage = .acceptingSource → s.served .backup = []
  noTarget : s.stage = .acceptingTarget → s.served .backup ≠ [] ∧ s.served .restore = []
  sourceFirst : s.served .backup = [] → s.served .restore = [] ∧ s.reader = none
  both : s.stage.streaming = true → s.served .restore ≠ []

theorem ports_spawned (now : Nat) : Ports peers (.spawned now) where
  few := fun _ => Nat.zero_le 1
  allowed := fun _ _ h => absurd h List.not_mem_nil
  noSource := fun _ => rfl
  noTarget := fun h => nomatch h
  sourceFirst := fun _ => ⟨rfl, rfl⟩
  both := fun h => Bool.noConfusion h

/-- The port of a role that has not served anybody serves one of its peers. -/
theorem serve_one {c : Conn} {role : Role} (h : Ports peers s) (hnone : s.served role = [])
    (hc : admits (peers role) c = true) :
    (∀ r, (setAt s.served role (s.served role ++ [c]) r).length ≤ 1) ∧
      ∀ r, ∀ d ∈ setAt s.served role (s.served role ++ [c]) r, admits (peers r) d = true := by
  constructor
  · intro r
    by_cases hr : r = role
    · subst hr
      simp [hnone]
    · rw [setAt_other _ _ hr]
      exact h.few r
  · intro r d hd
    by_cases hr : r = role
    · subst hr
      simp only [setAt_self, hnone, List.nil_append, List.mem_singleton] at hd
      exact hd ▸ hc
    · rw [setAt_other _ _ hr] at hd
      exact h.allowed r d hd

/-- A step that serves nobody and leaves the task where it is or has it go on. -/
theorem Ports.moved (h : Ports peers s) (hserved : s'.served = s.served)
    (hstage : s'.stage = s.stage ∨ s'.stage.over = true ∨
      s.stage.streaming = true ∧ s'.stage.streaming = true)
    (hreader : s'.reader = s.reader ∨ s.reader.isSome) : Ports peers s' := by
  have hfirst : s'.served .backup = [] → s'.served .restore = [] ∧ s'.reader = none := by
    intro hnone
    rw [hserved] at hnone ⊢
    obtain ⟨hrestore, hidle⟩ := h.sourceFirst hnone
    rcases hreader with heq | hsome
    · exact ⟨hrestore, heq.trans hidle⟩
    · rw [hidle] at hsome
      cases hsome
  refine ⟨fun r => hserved ▸ h.few r, fun r => hserved ▸ h.allowed r, ?_, ?_, hfirst, ?_⟩
  · intro hs
    rcases hstage with heq | hover | ⟨-, hstream⟩
    · exact hserved ▸ h.noSource (heq ▸ hs)
    · simp [hs, Stage.over] at hover
    · simp [hs, Stage.streaming] at hstream
  · intro hs
    rcases hstage with heq | hover | ⟨-, hstream⟩
    · exact hserved ▸ h.noTarget (heq ▸ hs)
    · simp [hs, Stage.over] at hover
    · simp [hs, Stage.streaming] at hstream
  · intro hs
    rw [hserved]
    rcases hstage with heq | hover | ⟨hbefore, -⟩
    · exact h.both (heq ▸ hs)
    · cases hstage' : s'.stage <;> simp [hstage', Stage.over, Stage.streaming] at hover hs
    · exact h.both hbefore

theorem Move.ports (hm : Move peers s s') (h : Ports peers s) : Ports peers s' := by
  cases hm with
  | around backlog now => exact h.moved rfl (.inl rfl) (.inl rfl)
  | acceptSource c backlog stage admitted =>
    have hnone : s.served .backup = [] := h.noSource stage
    obtain ⟨hfew, hallowed⟩ := serve_one h hnone admitted
    have hother : Role.restore ≠ .backup := by decide
    refine ⟨hfew, hallowed, (fun hs => nomatch hs), fun _ => ⟨by simp, ?_⟩, fun hs => ?_,
      (fun hs => nomatch hs)⟩
    · exact (setAt_other s.served (s.served .backup ++ [c]) hother).trans (h.sourceFirst hnone).1
    · simp at hs
  | acceptTarget c backlog stage admitted =>
    obtain ⟨hsource, hnone⟩ := h.noTarget stage
    obtain ⟨hfew, hallowed⟩ := serve_one h hnone admitted
    have hother : Role.backup ≠ .restore := by decide
    refine ⟨hfew, hallowed, (fun hs => nomatch hs), (fun hs => nomatch hs), fun hs => ?_,
      fun _ => by simp⟩
    exact absurd ((setAt_other s.served (s.served .restore ++ [c]) hother).symm.trans hs) hsource
  | receive chunk rest stage queue =>
    exact h.moved rfl (.inr (.inr ⟨by rw [stage]; rfl, rfl⟩)) (.inl rfl)
  | drained r stage queue reader closed =>
    exact h.moved rfl (.inr (.inr ⟨by rw [stage]; rfl, rfl⟩)) (.inl rfl)
  | write chunk rest n stage =>
    exact h.moved rfl (.inr (.inr ⟨by rw [stage]; rfl, rfl⟩)) (.inl rfl)
  | counted chunk stage =>
    exact h.moved rfl (.inr (.inr ⟨by rw [stage]; rfl, rfl⟩)) (.inl rfl)
  | joined stage reader =>
    exact h.moved rfl (.inr (.inr ⟨by rw [stage]; rfl, rfl⟩)) (.inl rfl)
  | returned stage some => exact h.moved rfl (.inr (.inl rfl)) (.inl rfl)
  | failed e stage => exact h.moved rfl (.inr (.inl rfl)) (.inl rfl)
  | aborted stage => exact h.moved rfl (.inr (.inl rfl)) (.inl rfl)
  | read n reader => exact h.moved rfl (.inl rfl) (.inr (by rw [reader]; rfl))
  | ended reader eof => exact h.moved rfl (.inl rfl) (.inr (by rw [reader]; rfl))
  | readError e reader => exact h.moved rfl (.inl rfl) (.inr (by rw [reader]; rfl))
  | push chunk reader stage => exact h.moved rfl (.inl rfl) (.inr (by rw [reader]; rfl))
  | writerGone chunk e reader stage => exact h.moved rfl (.inl rfl) (.inr (by rw [reader]; rfl))
  | joinError r text reader running => exact h.moved rfl (.inl rfl) (.inr (by rw [reader]; rfl))

/-! ## The bytes on their way -/

/-- What is left of the write the task is at. -/
def Stage.unwritten : Stage → List UInt8
  | .writing _ rest => rest
  | _ => []

def unsent : Option Reader → List UInt8
  | some (.sending chunk) => chunk
  | _ => []

/-- Bytes that were read and not yet handed to the target. -/
def State.inFlight (s : State) : List UInt8 :=
  s.stage.unwritten ++ (s.queue.flatten ++ unsent s.reader)

/-- What was read is a beginning of the source's stream, and what was handed on a beginning
of what was read. Bytes are lost only with a reader that the runtime has ended. -/
structure Flow (s : State) : Prop where
  delivered : s.delivered <+: s.taken
  conserved : s.stage.over = false → ∃ lost, s.taken = s.delivered ++ (s.inFlight ++ lost) ∧
    ((∀ text, s.reader ≠ some (.joinError text)) → lost = [])
  ofSource : ∀ c ∈ s.served .backup, s.taken <+: c.stream
  unread : s.served .backup = [] → s.taken = []
  atEnd : s.reader = some (.finished (.ok ())) → ∀ c ∈ s.served .backup, s.taken = c.stream

theorem flow_spawned (now : Nat) : Flow (.spawned now) where
  delivered := List.prefix_refl []
  conserved := fun _ => ⟨[], rfl, fun _ => rfl⟩
  ofSource := fun _ h => absurd h List.not_mem_nil
  unread := fun _ => rfl
  atEnd := fun h => nomatch h

theorem left_eq {c : Conn} (h : Ports peers s) (hc : c ∈ s.served .backup) :
    s.left = c.stream.drop s.taken.length := by
  have hone : (s.served .backup).length ≤ 1 := h.few .backup
  unfold State.left
  cases hserved : s.served .backup with
  | nil => simp [hserved] at hc
  | cons d ds =>
    rw [hserved, List.length_cons] at hone
    obtain rfl : ds = [] := List.length_eq_zero_iff.mp (by omega)
    rw [hserved, List.mem_singleton] at hc
    rw [hc]

theorem append_left {c : Conn} (hp : Ports peers s) (h : Flow s) (hc : c ∈ s.served .backup) :
    s.taken ++ s.left = c.stream := by
  obtain ⟨t, ht⟩ := h.ofSource c hc
  rw [left_eq hp hc, ← ht, List.drop_left]

/-- A step that reads nothing and moves bytes on towards the target. -/
theorem Flow.moved (h : Flow s) (htaken : s'.taken = s.taken)
    (hserved : s'.served .backup = s.served .backup)
    (hgone : s'.stage.over = false → s.stage.over = false)
    (hdelivered : s'.delivered <+: s'.taken)
    (hbytes : s'.stage.over = false → s'.delivered ++ s'.inFlight = s.delivered ++ s.inFlight)
    (hreader : s'.reader = s.reader ∨
      s'.reader ≠ some (.finished (.ok ())) ∧ ∀ text, s.reader ≠ some (.joinError text)) :
    Flow s' := by
  refine ⟨hdelivered, fun hopen => ?_, ?_, ?_, fun hend => ?_⟩
  · obtain ⟨lost, heq, hnone⟩ := h.conserved (hgone hopen)
    refine ⟨lost, ?_, fun hjoin => hnone ?_⟩
    · rw [htaken, heq, ← List.append_assoc, ← hbytes hopen, List.append_assoc]
    · rcases hreader with hsame | ⟨-, hno⟩
      · rwa [hsame] at hjoin
      · exact hno
  · rw [hserved, htaken]
    exact h.ofSource
  · rw [hserved, htaken]
    exact h.unread
  · rcases hreader with hsame | ⟨hnot, -⟩
    · rw [hserved, htaken]
      exact h.atEnd (hsame ▸ hend)
    · exact absurd hend hnot

/-- The reader is at work, so nothing is lost. -/
theorem Flow.whole {r : Reader} (h : Flow s) (hopen : s.stage.over = false)
    (hreader : s.reader = some r) (hrunning : r.closed = false) :
    s.taken = s.delivered ++ s.inFlight := by
  obtain ⟨lost, heq, hnone⟩ := h.conserved hopen
  have hlost : lost = [] := by
    apply hnone
    intro text hjoin
    rw [hreader] at hjoin
    obtain rfl := Option.some.inj hjoin
    cases hrunning
  rw [heq, hlost, List.append_nil]

theorem flow_acceptSource {c : Conn} {backlog : Role → List Conn} (hp : Ports peers s)
    (h : Flow s) (hstage : s.stage = .acceptingSource) :
    Flow { s with
      stage := .acceptingTarget, sourceConnected := true, reader := some .reading, backlog
      served := setAt s.served .backup (s.served .backup ++ [c]), lastActivity := s.now } := by
  have hnone : s.served .backup = [] := hp.noSource hstage
  have hidle : s.reader = none := (hp.sourceFirst hnone).2
  refine ⟨h.delivered, fun _ => ?_, fun d _ => ?_, fun hs => ?_, (fun hs => nomatch hs)⟩
  · obtain ⟨lost, heq, hlost⟩ := h.conserved (by rw [hstage]; rfl)
    rw [State.inFlight, hstage, hidle] at heq
    exact ⟨lost, heq, fun _ => hlost (by simp [hidle])⟩
  · rw [show State.taken _ = s.taken from rfl, h.unread hnone]
    exact List.nil_prefix
  · simp at hs

theorem flow_write {chunk rest : List UInt8} (n : Nat) (h : Flow s)
    (hstage : s.stage = .writing chunk rest) :
    Flow { s with
      stage := .writing chunk (rest.drop n), delivered := s.delivered ++ rest.take n } := by
  have hopen : s.stage.over = false := by rw [hstage]; rfl
  have hsplit : s.delivered ++ rest.take n ++ (rest.drop n ++ (s.queue.flatten ++ unsent s.reader)) =
      s.delivered ++ (rest ++ (s.queue.flatten ++ unsent s.reader)) := by
    rw [List.append_assoc, ← List.append_assoc (rest.take n), List.take_append_drop]
  have hflight : s.inFlight = rest ++ (s.queue.flatten ++ unsent s.reader) := by
    rw [State.inFlight, hstage]
    rfl
  refine h.moved rfl rfl (fun _ => hopen) ?_ (fun _ => ?_) (.inl rfl)
  · obtain ⟨lost, heq, -⟩ := h.conserved hopen
    rw [← List.append_assoc, hflight, ← hsplit] at heq
    show s.delivered ++ rest.take n <+: s.taken
    rw [heq, List.append_assoc]
    exact List.prefix_append _ _
  · rw [hflight]
    exact hsplit

theorem flow_read (n : Nat) (hp : Ports peers s) (h : Flow s) (hreader : s.reader = some .reading) :
    Flow { s with
      reader := some (.sending (s.left.take n)), taken := s.taken ++ s.left.take n
      lastActivity := s.now } := by
  refine ⟨h.delivered.trans (List.prefix_append _ _), fun hopen => ⟨[], ?_, fun _ => rfl⟩,
    fun c hc => ?_, fun hnone => ?_, (fun hs => nomatch hs)⟩
  · have hwhole : s.taken = s.delivered ++ s.inFlight := h.whole hopen hreader rfl
    rw [State.inFlight, hreader] at hwhole
    simp only [State.inFlight, unsent, List.append_nil]
    show s.taken ++ s.left.take n = _
    rw [hwhole]
    simp [unsent]
  · have happend : s.taken ++ s.left = c.stream := append_left hp h hc
    rw [← happend]
    exact (List.prefix_append_right_inj _).mpr (List.take_prefix n s.left)
  · have hidle : s.reader = none := (hp.sourceFirst hnone).2
    rw [hreader] at hidle
    cases hidle

theorem Move.flow (hm : Move peers s s') (hp : Ports peers s) (h : Flow s) : Flow s' := by
  cases hm with
  | around backlog now => exact h.moved rfl rfl id h.delivered (fun _ => rfl) (.inl rfl)
  | acceptSource c backlog stage admitted => exact flow_acceptSource hp h stage
  | acceptTarget c backlog stage admitted =>
    have hother : Role.backup ≠ .restore := by decide
    refine h.moved rfl ?_ (fun _ => by rw [stage]; rfl) h.delivered (fun _ => ?_) (.inl rfl)
    · exact setAt_other s.served (s.served .restore ++ [c]) hother
    · simp [State.inFlight, stage, Stage.unwritten]
  | receive chunk rest stage queue =>
    refine h.moved rfl rfl (fun _ => by rw [stage]; rfl) h.delivered (fun _ => ?_) (.inl rfl)
    simp [State.inFlight, stage, queue, Stage.unwritten]
  | drained r stage queue reader closed =>
    refine h.moved rfl rfl (fun _ => by rw [stage]; rfl) h.delivered (fun _ => ?_) (.inl rfl)
    simp [State.inFlight, stage, queue, Stage.unwritten]
  | write chunk rest n stage => exact flow_write n h stage
  | counted chunk stage =>
    refine h.moved rfl rfl (fun _ => by rw [stage]; rfl) h.delivered (fun _ => ?_) (.inl rfl)
    simp [State.inFlight, stage, Stage.unwritten]
  | joined stage reader =>
    refine h.moved rfl rfl (fun _ => by rw [stage]; rfl) h.delivered (fun _ => ?_) (.inl rfl)
    simp [State.inFlight, stage, Stage.unwritten]
  | returned stage some =>
    exact h.moved rfl rfl (fun hs => nomatch hs) h.delivered (fun hs => nomatch hs) (.inl rfl)
  | failed e stage =>
    exact h.moved rfl rfl (fun hs => nomatch hs) h.delivered (fun hs => nomatch hs) (.inl rfl)
  | aborted stage =>
    exact h.moved rfl rfl (fun hs => nomatch hs) h.delivered (fun hs => nomatch hs) (.inl rfl)
  | read n reader => exact flow_read n hp h reader
  | ended reader eof =>
    refine ⟨h.delivered, fun hopen => ⟨[], ?_, fun _ => rfl⟩, h.ofSource, h.unread, fun _ c hc => ?_⟩
    · have hwhole : s.taken = s.delivered ++ s.inFlight := h.whole hopen reader rfl
      rw [State.inFlight, reader] at hwhole
      rw [List.append_nil]
      exact hwhole
    · have happend : s.taken ++ s.left = c.stream := append_left hp h hc
      rwa [eof, List.append_nil] at happend
  | readError e reader =>
    refine h.moved rfl rfl id h.delivered (fun _ => ?_) (.inr ⟨by simp, by simp [reader]⟩)
    simp [State.inFlight, reader, unsent]
  | push chunk reader stage =>
    refine h.moved rfl rfl id h.delivered (fun _ => ?_) (.inr ⟨by simp, by simp [reader]⟩)
    simp [State.inFlight, reader, unsent]
  | writerGone chunk e reader stage =>
    refine h.moved rfl rfl id h.delivered (fun hopen => ?_) (.inr ⟨by simp, by simp [reader]⟩)
    exact absurd (stage.symm.trans hopen) (by decide)
  | joinError r text reader running =>
    refine ⟨h.delivered, fun hopen => ?_, h.ofSource, h.unread, (fun hs => by simp at hs)⟩
    have hwhole : s.taken = s.delivered ++ s.inFlight := h.whole hopen reader running
    refine ⟨unsent s.reader, ?_, fun hno => absurd rfl (hno text)⟩
    show s.taken = _
    rw [hwhole]
    simp [State.inFlight, unsent]

/-! ## The counters -/

/-- What the task has counted is what it has handed on, less the write it is at. -/
structure Counted (s : State) : Prop where
  bytes : s.bytes = s.total
  le : s.total ≤ s.delivered.length
  writing : ∀ chunk rest, s.stage = .writing chunk rest → ∃ d w,
    s.delivered = d ++ w ∧ chunk = w ++ rest ∧ s.total = d.length % 2 ^ 64
  between : (∀ chunk rest, s.stage ≠ .writing chunk rest) → s.stage.over = false →
    s.total = s.delivered.length % 2 ^ 64
  none : s.served .restore = [] → s.delivered = []

theorem counted_spawned (now : Nat) : Counted (.spawned now) where
  bytes := rfl
  le := Nat.le_refl 0
  writing := fun _ _ h => nomatch h
  between := fun _ _ => rfl
  none := fun _ => rfl

/-- A step that counts nothing and hands nothing on, to or from a stage between two writes. -/
theorem Counted.moved (h : Counted s) (hbytes : s'.bytes = s.bytes) (htotal : s'.total = s.total)
    (hdelivered : s'.delivered = s.delivered)
    (hserved : s'.served .restore = [] → s.served .restore = [])
    (hstage : s'.stage = s.stage ∨ (∀ chunk rest, s'.stage ≠ .writing chunk rest) ∧
      (s'.stage.over = false →
        (∀ chunk rest, s.stage ≠ .writing chunk rest) ∧ s.stage.over = false)) :
    Counted s' := by
  refine ⟨by rw [hbytes, htotal, h.bytes], by rw [htotal, hdelivered]; exact h.le, ?_, ?_, ?_⟩
  · intro chunk rest hs
    rw [hdelivered, htotal]
    rcases hstage with heq | ⟨hnot, -⟩
    · exact h.writing chunk rest (heq ▸ hs)
    · exact absurd hs (hnot chunk rest)
  · intro hnot hopen
    rw [hdelivered, htotal]
    rcases hstage with heq | ⟨-, hbefore⟩
    · rw [heq] at hnot hopen
      exact h.between hnot hopen
    · exact h.between (hbefore hopen).1 (hbefore hopen).2
  · intro hnone
    rw [hdelivered]
    exact h.none (hserved hnone)

theorem counted_write {chunk rest : List UInt8} (n : Nat) (hp : Ports peers s) (h : Counted s)
    (hstage : s.stage = .writing chunk rest) :
    Counted { s with
      stage := .writing chunk (rest.drop n), delivered := s.delivered ++ rest.take n } := by
  obtain ⟨d, w, hd, hchunk, htotal⟩ := h.writing chunk rest hstage
  refine ⟨h.bytes, ?_, fun chunk' rest' hs => ?_, fun hnot => absurd rfl (hnot _ _), fun hnone => ?_⟩
  · have hle := h.le
    simp only [List.length_append]
    omega
  · obtain ⟨rfl, rfl⟩ := Stage.writing.inj hs
    refine ⟨d, w ++ rest.take n, ?_, ?_, htotal⟩
    · rw [← List.append_assoc, ← hd]
    · rw [List.append_assoc, List.take_append_drop, hchunk]
  · exact absurd hnone (hp.both (by rw [hstage]; rfl))

theorem counted_counted {chunk : List UInt8} (hp : Ports peers s) (h : Counted s)
    (hstage : s.stage = .writing chunk []) :
    Counted { s with
      stage := .receiving, total := (s.total + chunk.length) % 2 ^ 64
      bytes := (s.total + chunk.length) % 2 ^ 64, lastActivity := s.now } := by
  obtain ⟨d, w, hd, hchunk, htotal⟩ := h.writing chunk [] hstage
  have hsum : (s.total + chunk.length) % 2 ^ 64 = s.delivered.length % 2 ^ 64 := by
    rw [hchunk, List.append_nil, htotal, hd, List.length_append, Nat.mod_add_mod]
  refine ⟨rfl, ?_, (fun _ _ hs => nomatch hs), fun _ _ => hsum, fun hnone => ?_⟩
  · exact hsum ▸ Nat.mod_le _ _
  · exact absurd hnone (hp.both (by rw [hstage]; rfl))

theorem Move.counts (hm : Move peers s s') (hp : Ports peers s) (h : Counted s) : Counted s' := by
  cases hm with
  | around backlog now => exact h.moved rfl rfl rfl id (.inl rfl)
  | acceptSource c backlog stage admitted =>
    have hother : Role.restore ≠ .backup := by decide
    refine h.moved rfl rfl rfl (fun hnone => ?_) (.inr ⟨by simp, fun _ => by simp [stage, Stage.over]⟩)
    exact (setAt_other s.served (s.served .backup ++ [c]) hother).symm.trans hnone
  | acceptTarget c backlog stage admitted =>
    refine h.moved rfl rfl rfl (fun hnone => ?_) (.inr ⟨by simp, fun _ => by simp [stage, Stage.over]⟩)
    simp at hnone
  | receive chunk rest stage queue =>
    have htotal : s.total = s.delivered.length % 2 ^ 64 :=
      h.between (by simp [stage]) (by rw [stage]; rfl)
    refine ⟨h.bytes, h.le, fun chunk' rest' hs => ?_, fun hnot => absurd rfl (hnot _ _), h.none⟩
    obtain ⟨rfl, rfl⟩ := Stage.writing.inj hs
    exact ⟨s.delivered, [], (List.append_nil _).symm, rfl, htotal⟩
  | drained r stage queue reader closed =>
    exact h.moved rfl rfl rfl id (.inr ⟨by simp, fun _ => by simp [stage, Stage.over]⟩)
  | write chunk rest n stage => exact counted_write n hp h stage
  | counted chunk stage => exact counted_counted hp h stage
  | joined stage reader =>
    exact h.moved rfl rfl rfl id (.inr ⟨by simp, fun _ => by simp [stage, Stage.over]⟩)
  | returned stage some =>
    exact h.moved rfl rfl rfl id (.inr ⟨by simp [State.finish], fun hs => nomatch hs⟩)
  | failed e stage =>
    exact h.moved rfl rfl rfl id (.inr ⟨by simp [State.finish], fun hs => nomatch hs⟩)
  | aborted stage => exact h.moved rfl rfl rfl id (.inr ⟨by simp, fun hs => nomatch hs⟩)
  | read n reader => exact h.moved rfl rfl rfl id (.inl rfl)
  | ended reader eof => exact h.moved rfl rfl rfl id (.inl rfl)
  | readError e reader => exact h.moved rfl rfl rfl id (.inl rfl)
  | push chunk reader stage => exact h.moved rfl rfl rfl id (.inl rfl)
  | writerGone chunk e reader stage => exact h.moved rfl rfl rfl id (.inl rfl)
  | joinError r text reader running => exact h.moved rfl rfl rfl id (.inl rfl)

/-! ## The end of the task -/

/-- The task gives a number of bytes only after the end of the stream, with all of it
delivered. -/
structure Ending (s : State) : Prop where
  joining : s.stage = .joining → s.queue = [] ∧ ∃ r, s.reader = some r ∧ r.closed = true
  closing : s.stage = .closing → s.queue = [] ∧ s.reader = some (.finished (.ok ()))
  returned : ∀ n, s.stage = .done (.ok n) → s.reader = some (.finished (.ok ())) ∧ 0 < n ∧
    n = s.delivered.length % 2 ^ 64 ∧ s.taken = s.delivered

theorem ending_spawned (now : Nat) : Ending (.spawned now) where
  joining := fun h => nomatch h
  closing := fun h => nomatch h
  returned := fun _ h => nomatch h

/-- Before the task is at its end, there is nothing to be shown. -/
theorem ending_of_earlier (h : s.stage.over = true ∨ s.stage ≠ .joining ∧ s.stage ≠ .closing)
    (hok : ∀ n, s.stage ≠ .done (.ok n)) : Ending s := by
  refine ⟨fun hs => ?_, fun hs => ?_, fun n hs => absurd hs (hok n)⟩
  · rcases h with hover | ⟨hnot, -⟩
    · simp [hs, Stage.over] at hover
    · exact absurd hs hnot
  · rcases h with hover | ⟨-, hnot⟩
    · simp [hs, Stage.over] at hover
    · exact absurd hs hnot

/-- A reader that is at work keeps the task from its end. -/
theorem Ending.running {r : Reader} (h : Ending s) (hreader : s.reader = some r)
    (hrunning : r.closed = false) :
    (s.stage ≠ .joining ∧ s.stage ≠ .closing) ∧ ∀ n, s.stage ≠ .done (.ok n) := by
  refine ⟨⟨fun hs => ?_, fun hs => ?_⟩, fun n hs => ?_⟩
  · obtain ⟨-, r', hr', hclosed⟩ := h.joining hs
    obtain rfl := Option.some.inj (hreader.symm.trans hr')
    rw [hrunning] at hclosed
    cases hclosed
  · have hend := (h.closing hs).2
    obtain rfl := Option.some.inj (hreader.symm.trans hend)
    cases hrunning
  · have hend := (h.returned n hs).1
    obtain rfl := Option.some.inj (hreader.symm.trans hend)
    cases hrunning

theorem Move.ending (hm : Move peers s s') (hf : Flow s) (hc : Counted s) (h : Ending s) :
    Ending s' := by
  cases hm with
  | around backlog now => exact ⟨h.joining, h.closing, h.returned⟩
  | acceptSource c backlog stage admitted => exact ending_of_earlier (.inr (by simp)) (by simp)
  | acceptTarget c backlog stage admitted => exact ending_of_earlier (.inr (by simp)) (by simp)
  | receive chunk rest stage queue => exact ending_of_earlier (.inr (by simp)) (by simp)
  | drained r stage queue reader closed =>
    exact ⟨fun _ => ⟨rfl, r, reader, closed⟩, (fun hs => nomatch hs), (fun _ hs => nomatch hs)⟩
  | write chunk rest n stage => exact ending_of_earlier (.inr (by simp)) (by simp)
  | counted chunk stage => exact ending_of_earlier (.inr (by simp)) (by simp)
  | joined stage reader =>
    exact ⟨(fun hs => nomatch hs), fun _ => ⟨(h.joining stage).1, reader⟩, (fun _ hs => nomatch hs)⟩
  | returned stage some =>
    obtain ⟨hqueue, hreader⟩ := h.closing stage
    have hopen : s.stage.over = false := by rw [stage]; rfl
    refine ⟨(fun hs => nomatch hs), (fun hs => nomatch hs), fun n hs => ?_⟩
    obtain rfl : s.total = n := Except.ok.inj (Stage.done.inj hs)
    refine ⟨hreader, Nat.pos_of_ne_zero some, hc.between (by simp [stage]) hopen, ?_⟩
    obtain ⟨lost, heq, hlost⟩ := hf.conserved hopen
    rw [hlost (by simp [hreader]), State.inFlight, stage, hqueue, hreader] at heq
    simpa [Stage.unwritten, unsent, State.finish] using heq
  | failed e stage => exact ending_of_earlier (.inl rfl) (by simp [State.finish])
  | aborted stage => exact ending_of_earlier (.inl rfl) (by simp)
  | read n reader =>
    obtain ⟨hstage, hok⟩ := h.running reader rfl
    exact ending_of_earlier (.inr hstage) hok
  | ended reader eof =>
    obtain ⟨hstage, hok⟩ := h.running reader rfl
    exact ending_of_earlier (.inr hstage) hok
  | readError e reader =>
    obtain ⟨hstage, hok⟩ := h.running reader rfl
    exact ending_of_earlier (.inr hstage) hok
  | push chunk reader stage =>
    obtain ⟨hstage, hok⟩ := h.running reader rfl
    exact ending_of_earlier (.inr hstage) hok
  | writerGone chunk e reader stage =>
    obtain ⟨hstage, hok⟩ := h.running reader rfl
    exact ending_of_earlier (.inr hstage) hok
  | joinError r text reader running =>
    obtain ⟨hstage, hok⟩ := h.running reader running
    exact ending_of_earlier (.inr hstage) hok

/-! ## Whole runs -/

structure Sound (peers : Peers) (s : State) : Prop where
  ports : Ports peers s
  flow : Flow s
  counted : Counted s
  ending : Ending s

abbrev Runs (peers : Peers) (now : Nat) (as : List Act) (s : State) : Prop :=
  Run (State.step peers) (fun _ _ => True) (.spawned now) as s

theorem sound_run {now : Nat} {as : List Act} (h : Runs peers now as s) : Sound peers s := by
  induction h with
  | start => exact ⟨ports_spawned now, flow_spawned now, counted_spawned now, ending_spawned now⟩
  | snoc _ _ hs ih =>
    have hm := step_moves hs
    exact ⟨hm.ports ih.ports, hm.flow ih.ports ih.flow, hm.counts ih.ports ih.counted,
      hm.ending ih.flow ih.counted ih.ending⟩

/-- A read of the source fails in this step. -/
def ReadFails (s : State) (a : Act) : Prop :=
  s.reader = some .reading ∧ ∃ text, a = .reader (.error text)

/-- A write to the target fails in this step, or takes no byte. -/
def WriteFails (s : State) (a : Act) : Prop :=
  ∃ chunk b rest, s.stage = .writing chunk (b :: rest) ∧
    (a = .task (.ok 0) ∨ ∃ text, a = .task (.error text))

def ReaderFailed (s : State) : Prop := ∃ e, s.reader = some (.finished (.error e))

def TaskFailed (s : State) : Prop := ∃ e, s.stage = .done (.error e)

/-- A reader's result stays. -/
theorem reader_kept {e : Error} (hm : Move peers s s') (hp : Ports peers s)
    (h : s.reader = some (.finished (.error e))) : s'.reader = some (.finished (.error e)) := by
  have hnot : ∀ r : Reader, r.closed = false → s.reader ≠ some r := by
    intro r hr heq
    obtain rfl := Option.some.inj (heq.symm.trans h)
    cases hr
  cases hm with
  | acceptSource c backlog stage _ =>
    have hidle : s.reader = none := (hp.sourceFirst (hp.noSource stage)).2
    exact absurd (hidle.symm.trans h) (by simp)
  | read n reader => exact absurd reader (hnot _ rfl)
  | ended reader _ => exact absurd reader (hnot _ rfl)
  | readError e reader => exact absurd reader (hnot _ rfl)
  | push chunk reader _ => exact absurd reader (hnot _ rfl)
  | writerGone chunk e reader _ => exact absurd reader (hnot _ rfl)
  | joinError r text reader running => exact absurd reader (hnot _ running)
  | _ => exact h

theorem stage_kept {r : Except Error Nat} (hm : Move peers s s') (h : s.stage = .done r) :
    s'.stage = .done r := by
  have hover : s.stage.over = true := by rw [h]; rfl
  have hnot : ∀ stage : Stage, stage.over = false → s.stage ≠ stage := by
    intro stage hopen heq
    rw [heq, hopen] at hover
    cases hover
  cases hm with
  | acceptSource c backlog stage _ => exact absurd stage (hnot _ rfl)
  | acceptTarget c backlog stage _ => exact absurd stage (hnot _ rfl)
  | receive chunk rest stage _ => exact absurd stage (hnot _ rfl)
  | drained r stage _ _ _ => exact absurd stage (hnot _ rfl)
  | write chunk rest n stage => exact absurd stage (hnot _ rfl)
  | counted chunk stage => exact absurd stage (hnot _ rfl)
  | joined stage _ => exact absurd stage (hnot _ rfl)
  | returned stage _ => exact absurd stage (hnot _ rfl)
  | failed e stage => exact absurd rfl (hnot _ stage)
  | aborted stage => exact absurd rfl (hnot _ stage)
  | _ => exact h

theorem read_error_kept {now : Nat} {as : List Act} (h : Runs peers now as s)
    (hfail : Happened (State.step peers) (.spawned now) ReadFails as) : ReaderFailed s := by
  refine h.since sound_run ?_ ?_ hfail
  · intro s a s' _ _ hfails hs
    obtain ⟨hreader, text, rfl⟩ := hfails
    simp only [State.step, State.readerStep, hreader] at hs
    obtain rfl := Option.some.inj hs
    exact ⟨_, rfl⟩
  · intro s a s' hsound hinv _ hs
    obtain ⟨e, hreader⟩ := hinv
    exact ⟨e, reader_kept (step_moves hs) hsound.ports hreader⟩

theorem write_error_kept {now : Nat} {as : List Act} (h : Runs peers now as s)
    (hfail : Happened (State.step peers) (.spawned now) WriteFails as) : TaskFailed s := by
  refine h.since sound_run ?_ ?_ hfail
  · intro s a s' _ _ hfails hs
    obtain ⟨chunk, b, rest, hstage, hio⟩ := hfails
    rcases hio with rfl | ⟨text, rfl⟩
    · simp only [State.step, State.taskStep, hstage] at hs
      obtain rfl := Option.some.inj hs
      exact ⟨_, rfl⟩
    · simp only [State.step, State.taskStep, hstage] at hs
      obtain rfl := Option.some.inj hs
      exact ⟨_, rfl⟩
  · intro s a s' _ hinv _ hs
    obtain ⟨e, hstage⟩ := hinv
    exact ⟨e, stage_kept (step_moves hs) hstage⟩

/-- What can be said of a relay at any moment of a run. -/
structure Faithful (peers : Peers) (now : Nat) (as : List Act) (s : State) : Prop where
  /-- The target has a beginning of what was read, which is a beginning of the stream. -/
  stream : s.delivered <+: s.taken ∧ ∀ c ∈ s.served .backup, s.taken <+: c.stream
  /-- One connection is served on each port, and it comes from a peer of the port. -/
  pinned : ∀ role, (s.served role).length ≤ 1 ∧
    ∀ c ∈ s.served role, ∃ net ∈ peers role, net.contains c.peer = true
  counter : s.bytes ≤ s.delivered.length ∧
    (s.bytes ≠ 0 → s.served .backup ≠ [] ∧ s.served .restore ≠ [])
  /-- A number of bytes, as a u64, is returned only for a stream that was delivered whole. -/
  returned : ∀ n, s.stage = .done (.ok n) → 0 < n ∧ n = s.delivered.length % 2 ^ 64 ∧
    ∃ c, s.served .backup = [c] ∧ s.reader = some (.finished (.ok ())) ∧
      s.taken = c.stream ∧ s.delivered = c.stream
  readError : Happened (State.step peers) (.spawned now) ReadFails as →
    ∀ r, s.stage = .done r → ∃ e, r = .error e
  writeError : Happened (State.step peers) (.spawned now) WriteFails as → TaskFailed s

theorem Sound.returned {n : Nat} (h : Sound peers s) (hs : s.stage = .done (.ok n)) :
    0 < n ∧ n = s.delivered.length % 2 ^ 64 ∧
      ∃ c, s.served .backup = [c] ∧ s.reader = some (.finished (.ok ())) ∧
        s.taken = c.stream ∧ s.delivered = c.stream := by
  obtain ⟨hreader, hpos, hn, hall⟩ := h.ending.returned n hs
  refine ⟨hpos, hn, ?_⟩
  have hone : (s.served .backup).length ≤ 1 := h.ports.few .backup
  cases hserved : s.served .backup with
  | nil =>
    have hidle : s.reader = none := (h.ports.sourceFirst hserved).2
    exact absurd (hidle.symm.trans hreader) (by simp)
  | cons c cs =>
    rw [hserved, List.length_cons] at hone
    obtain rfl : cs = [] := List.length_eq_zero_iff.mp (by omega)
    have hend : s.taken = c.stream := h.flow.atEnd hreader c (by simp [hserved])
    exact ⟨c, rfl, hreader, hend, hall.symm.trans hend⟩

/-- Whatever the order of reads, writes and connections, a relay is faithful. -/
theorem relay_faithful {now : Nat} {as : List Act} (h : Runs peers now as s) :
    Faithful peers now as s := by
  have hsound : Sound peers s := sound_run h
  refine ⟨⟨hsound.flow.delivered, hsound.flow.ofSource⟩, fun role => ⟨hsound.ports.few role, ?_⟩,
    ⟨?_, fun hbytes => ?_⟩, fun n hs => hsound.returned hs, fun hfail r hr => ?_, write_error_kept h⟩
  · intro c hc
    have hadmits : admits (peers role) c = true := hsound.ports.allowed role c hc
    obtain ⟨net, hnet, hcontains⟩ := List.any_eq_true.mp hadmits
    exact ⟨net, hnet, hcontains⟩
  · rw [hsound.counted.bytes]
    exact hsound.counted.le
  · have htarget : s.served .restore ≠ [] := by
      intro hnone
      have hle : s.total ≤ s.delivered.length := hsound.counted.le
      rw [hsound.counted.none hnone, List.length_nil] at hle
      rw [hsound.counted.bytes] at hbytes
      omega
    exact ⟨fun hnone => htarget (hsound.ports.sourceFirst hnone).1, htarget⟩
  · cases r with
    | error e => exact ⟨e, rfl⟩
    | ok n =>
      obtain ⟨e, hreader⟩ := read_error_kept h hfail
      have hend := (hsound.ending.returned n hr).1
      exact absurd (hreader.symm.trans hend) (by simp)

namespace Sample

def source : Conn := ⟨.v4 0x0a000001, [1, 2, 3, 4, 5]⟩

def target : Conn := ⟨.v4 0x0a000002, []⟩

def stranger : Conn := ⟨.v4 0x0a000003, [9]⟩

def pinned : Peers
  | .backup => [.host source.peer]
  | .restore => [.host target.peer]

/-- The source is read to its end before the target arrives, after somebody else. -/
def buffered : List Act :=
  [ .connect .backup source, .task (.ok 0), .reader (.ok 3), .reader (.ok 0), .reader (.ok 2),
    .reader (.ok 0), .reader (.ok 0), .connect .restore stranger, .connect .restore target,
    .task (.ok 0), .task (.ok 0), .task (.ok 0), .task (.ok 3), .task (.ok 0), .task (.ok 0),
    .task (.ok 1), .task (.ok 1), .task (.ok 0), .task (.ok 0), .task (.ok 0), .task (.ok 0) ]

end Sample

theorem relay_faithful_buffered : ∃ s, s.delivered = [1, 2, 3, 4, 5] ∧ s.bytes = 5 ∧
    Faithful Sample.pinned 0 Sample.buffered s := by
  obtain ⟨s, hrun, hs⟩ := Run.exists_of_runList
    (p := fun s : State => decide (s.delivered = [1, 2, 3, 4, 5] ∧ s.bytes = 5))
    (show (runList (guarded (State.step Sample.pinned) fun _ _ => True) (.spawned 0)
      Sample.buffered).any _ = true by decide +kernel)
  obtain ⟨hdelivered, hbytes⟩ := of_decide_eq_true hs
  exact ⟨s, hdelivered, hbytes, relay_faithful hrun⟩

end ZfsEvacuation.RelayTask
