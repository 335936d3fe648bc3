import ZfsEvacuation.RelayIntegrity
import ZfsEvacuation.Amortized

/-!
# How far a relay gets

The reader is ahead of the target by what the queue and two more chunks hold, and no more. Every
step of the two tasks is paid for by a connection, and with both ends there and no call failing
the tasks always have a next step, until all of the stream is delivered.
-/
namespace ZfsEvacuation.RelayTask
open GuardedRun

variable {peers : Peers} {s s' t : State} {a : Act}

/-- The reader has ended without the end of the stream. -/
def Reader.failed : Reader → Bool
  | .finished (.error _) | .joinError _ => true
  | _ => false

/-- Nothing fails in this step: no call, and neither task is ended from outside. -/
def cooperates (s : State) : Act → Bool
  | .task (.error _) | .reader (.error _) | .joinError _ | .abort => false
  | .task (.ok 0) =>
    match s.stage with
    | .writing _ (_ :: _) => false
    | _ => true
  | _ => true

/-- What the task returns after so many bytes. -/
def outcome (n : Nat) : Except Error Nat :=
  if n % 2 ^ 64 = 0 then .error (.other "relay stream closed with zero bytes transferred")
  else .ok (n % 2 ^ 64)

/-! ## The steps of the two tasks -/

/-- All that a step of the two tasks can do, and when. -/
inductive Turn (peers : Peers) (s : State) (a : Act) : State → Prop
  | rejected (role : Role) (c : Conn) (rest : List Conn) (waiting : s.backlog role = c :: rest)
      (refused : admits (peers role) c = false) :
      Turn peers s a { s with backlog := setAt s.backlog role rest }
  | acceptSource (c : Conn) (rest : List Conn) (stage : s.stage = .acceptingSource)
      (waiting : s.backlog .backup = c :: rest) :
      Turn peers s a { s with
        stage := .acceptingTarget, sourceConnected := true, reader := some .reading
        backlog := setAt s.backlog .backup []
        served := setAt s.served .backup (s.served .backup ++ [c]), lastActivity := s.now }
  | acceptTarget (c : Conn) (rest : List Conn) (stage : s.stage = .acceptingTarget)
      (waiting : s.backlog .restore = c :: rest) :
      Turn peers s a { s with
        stage := .receiving, backlog := setAt s.backlog .restore []
        served := setAt s.served .restore (s.served .restore ++ [c]), lastActivity := s.now }
  | receive (chunk : List UInt8) (rest : List (List UInt8)) (stage : s.stage = .receiving)
      (queue : s.queue = chunk :: rest) :
      Turn peers s a { s with stage := .writing chunk chunk, queue := rest }
  | drained (stage : s.stage = .receiving) : Turn peers s a { s with stage := .joining }
  | write (chunk rest : List UInt8) (n : Nat) (stage : s.stage = .writing chunk rest)
      (pos : 0 < n) (le : n ≤ rest.length) :
      Turn peers s a { s with
        stage := .writing chunk (rest.drop n), delivered := s.delivered ++ rest.take n }
  | counted (chunk : List UInt8) (stage : s.stage = .writing chunk []) :
      Turn peers s a { s with
        stage := .receiving, total := (s.total + chunk.length) % 2 ^ 64
        bytes := (s.total + chunk.length) % 2 ^ 64, lastActivity := s.now }
  | joined (stage : s.stage = .joining) : Turn peers s a { s with stage := .closing }
  | returned (r : Except Error Nat) (stage : s.stage = .closing)
      (result : s.total < 2 ^ 64 → r = outcome s.total) : Turn peers s a (s.finish r)
  | failed (e : Error) (stage : s.stage.over = false)
      (fault : cooperates s a = false ∨ ∃ r, s.reader = some r ∧ r.failed = true) :
      Turn peers s a (s.finish (.error e))
  | read (n : Nat) (reader : s.reader = some .reading) (pos : 0 < n) (le : n ≤ chunkSize)
      (there : n ≤ s.left.length) :
      Turn peers s a { s with
        reader := some (.sending (s.left.take n)), taken := s.taken ++ s.left.take n
        lastActivity := s.now }
  | ended (reader : s.reader = some .reading) :
      Turn peers s a { s with reader := some (.finished (.ok ())) }
  | readError (e : Error) (reader : s.reader = some .reading) (fault : cooperates s a = false) :
      Turn peers s a { s with reader := some (.finished (.error e)) }
  | push (chunk : List UInt8) (reader : s.reader = some (.sending chunk))
      (room : s.queue.length < bufferChunks) :
      Turn peers s a { s with reader := some .reading, queue := s.queue ++ [chunk] }
  | writerGone (chunk : List UInt8) (e : Error) (reader : s.reader = some (.sending chunk))
      (stage : s.stage.over = true) :
      Turn peers s a { s with reader := some (.finished (.error e)) }

theorem accept_turns {role : Role} {kept : State → State} {io : Io}
    (hopen : s.stage.over = false)
    (hkept : ∀ c rest, s.backlog role = c :: rest → Turn peers s (.task io) (kept { s with
      backlog := setAt s.backlog role []
      served := setAt s.served role (s.served role ++ [c]), lastActivity := s.now }))
    (h : s.acceptFrom peers role kept io = some s') : Turn peers s (.task io) s' := by
  cases io with
  | error text =>
    obtain rfl := Option.some.inj h
    exact .failed _ hopen (.inl rfl)
  | ok n =>
    simp only [State.acceptFrom] at h
    cases hbacklog : s.backlog role with
    | nil =>
      rw [hbacklog] at h
      cases h
    | cons c rest =>
      simp only [hbacklog] at h
      split_ifs at h with hadmits
      · obtain rfl := Option.some.inj h
        exact hkept c rest hbacklog
      · obtain rfl := Option.some.inj h
        exact .rejected role c rest hbacklog (by simpa using hadmits)

theorem task_turns {io : Io} (h : s.taskStep peers io = some s') :
    Turn peers s (.task io) s' := by
  unfold State.taskStep at h
  cases hstage : s.stage with
  | acceptingSource =>
    simp only [hstage] at h
    exact accept_turns (by rw [hstage]; rfl) (fun c rest hw => .acceptSource c rest hstage hw) h
  | acceptingTarget =>
    simp only [hstage] at h
    exact accept_turns (by rw [hstage]; rfl) (fun c rest hw => .acceptTarget c rest hstage hw) h
  | receiving =>
    simp only [hstage] at h
    split at h
    · obtain rfl := Option.some.inj h
      exact .receive _ _ hstage ‹_›
    · split at h
      · obtain rfl := Option.some.inj h
        exact .drained hstage
      · obtain rfl := Option.some.inj h
        exact .drained hstage
      · cases h
  | writing chunk rest =>
    have hopen : s.stage.over = false := by rw [hstage]; rfl
    cases rest with
    | nil =>
      simp only [hstage] at h
      obtain rfl := Option.some.inj h
      exact .counted chunk hstage
    | cons b bs =>
      simp only [hstage] at h
      rcases io with (_ | n) | text
      · obtain rfl := Option.some.inj h
        exact .failed _ hopen (.inl (by simp [cooperates, hstage]))
      · simp only [] at h
        split_ifs at h with hle
        obtain rfl := Option.some.inj h
        exact .write chunk (b :: bs) (n + 1) hstage (Nat.succ_pos n) hle
      · obtain rfl := Option.some.inj h
        exact .failed _ hopen (.inl rfl)
  | joining =>
    have hopen : s.stage.over = false := by rw [hstage]; rfl
    simp only [hstage] at h
    split at h
    · obtain rfl := Option.some.inj h
      exact .joined hstage
    · obtain rfl := Option.some.inj h
      exact .failed _ hopen (.inr ⟨_, ‹_›, rfl⟩)
    · obtain rfl := Option.some.inj h
      exact .failed _ hopen (.inr ⟨_, ‹_›, rfl⟩)
    · cases h
  | closing =>
    simp only [hstage] at h
    split_ifs at h with htotal
    · obtain rfl := Option.some.inj h
      exact .returned _ hstage fun _ => by simp [outcome, htotal]
    · obtain rfl := Option.some.inj h
      exact .returned _ hstage fun hlt => by rw [outcome, Nat.mod_eq_of_lt hlt, if_neg htotal]
  | done r => simp [hstage] at h
  | aborted => simp [hstage] at h

theorem reader_turns {io : Io} (h : s.readerStep io = some s') :
    Turn peers s (.reader io) s' := by
  unfold State.readerStep at h
  cases hreader : s.reader with
  | none => simp [hreader] at h
  | some r =>
    cases r with
    | reading =>
      simp only [hreader] at h
      rcases io with (_ | n) | text
      · simp only [] at h
        split_ifs at h
        obtain rfl := Option.some.inj h
        exact .ended hreader
      · simp only [] at h
        split_ifs at h with hn
        obtain rfl := Option.some.inj h
        exact .read (n + 1) hreader (Nat.succ_pos n) hn.1 hn.2
      · obtain rfl := Option.some.inj h
        exact .readError _ hreader rfl
    | sending chunk =>
      simp only [hreader] at h
      split_ifs at h with hover hroom
      · obtain rfl := Option.some.inj h
        exact .writerGone chunk _ hreader hover
      · obtain rfl := Option.some.inj h
        exact .push chunk hreader hroom
    | finished r => simp [hreader] at h
    | joinError text => simp [hreader] at h

/-! ## Backpressure -/

/-- What each place on the way can hold. -/
structure Bounded (s : State) : Prop where
  queue : s.queue.length ≤ bufferChunks
  chunks : ∀ chunk ∈ s.queue, chunk.length ≤ chunkSize
  sending : (unsent s.reader).length ≤ chunkSize
  writing : s.stage.unwritten.length ≤ chunkSize

/-- A step that puts nothing in. -/
theorem Bounded.moved (h : Bounded s) (hqueue : s'.queue = s.queue ∨ s'.queue = [])
    (hreader : s'.reader = s.reader ∨ unsent s'.reader = [])
    (hstage : s'.stage = s.stage ∨ s'.stage.unwritten = []) : Bounded s' := by
  refine ⟨?_, fun chunk hc => ?_, ?_, ?_⟩
  · rcases hqueue with heq | heq <;> rw [heq]
    · exact h.queue
    · exact Nat.zero_le _
  · rcases hqueue with heq | heq <;> rw [heq] at hc
    · exact h.chunks chunk hc
    · cases hc
  · rcases hreader with heq | heq <;> rw [heq]
    · exact h.sending
    · exact Nat.zero_le _
  · rcases hstage with heq | heq <;> rw [heq]
    · exact h.writing
    · exact Nat.zero_le _

theorem Turn.bounded (ht : Turn peers s a s') (h : Bounded s) : Bounded s' := by
  cases ht with
  | rejected role c rest waiting refused => exact h.moved (.inl rfl) (.inl rfl) (.inl rfl)
  | acceptSource c rest stage waiting => exact h.moved (.inl rfl) (.inr rfl) (.inr rfl)
  | acceptTarget c rest stage waiting => exact h.moved (.inl rfl) (.inl rfl) (.inr rfl)
  | receive chunk rest stage queue =>
    refine ⟨?_, fun chunk' hc => h.chunks chunk' ?_, h.sending, h.chunks chunk (by simp [queue])⟩
    · have hlen := h.queue
      rw [queue, List.length_cons] at hlen
      exact Nat.le_of_succ_le hlen
    · rw [queue]
      exact List.mem_cons_of_mem chunk hc
  | drained stage => exact h.moved (.inl rfl) (.inl rfl) (.inr rfl)
  | write chunk rest n stage pos le =>
    refine ⟨h.queue, h.chunks, h.sending, ?_⟩
    have hrest := h.writing
    rw [stage] at hrest
    simp only [Stage.unwritten, List.length_drop] at hrest ⊢
    omega
  | counted chunk stage => exact h.moved (.inl rfl) (.inl rfl) (.inr rfl)
  | joined stage => exact h.moved (.inl rfl) (.inl rfl) (.inr rfl)
  | returned r stage result => exact h.moved (.inr rfl) (.inl rfl) (.inr rfl)
  | failed e stage fault => exact h.moved (.inr rfl) (.inl rfl) (.inr rfl)
  | read n reader pos le there =>
    refine ⟨h.queue, h.chunks, ?_, h.writing⟩
    simp only [unsent, List.length_take]
    omega
  | ended reader => exact h.moved (.inl rfl) (.inr rfl) (.inl rfl)
  | readError e reader fault => exact h.moved (.inl rfl) (.inr rfl) (.inl rfl)
  | push chunk reader room =>
    have hchunk := h.sending
    rw [reader] at hchunk
    refine ⟨by simpa using Nat.succ_le_of_lt room, fun chunk' hc => ?_, Nat.zero_le _, h.writing⟩
    rcases List.mem_append.mp hc with hold | hnew
    · exact h.chunks chunk' hold
    · rw [List.mem_singleton.mp hnew]
      exact hchunk
  | writerGone chunk e reader stage => exact h.moved (.inl rfl) (.inr rfl) (.inl rfl)

theorem bounded_step (h : Bounded s) (hs : State.step peers s a = some s') : Bounded s' := by
  cases a with
  | connect role c =>
    simp only [State.step] at hs
    split_ifs at hs
    obtain rfl := Option.some.inj hs
    exact h.moved (.inl rfl) (.inl rfl) (.inl rfl)
  | tick secs =>
    obtain rfl := Option.some.inj hs
    exact h.moved (.inl rfl) (.inl rfl) (.inl rfl)
  | task io => exact (task_turns hs).bounded h
  | reader io =>
    have ht : Turn peers s (.reader io) s' := reader_turns hs
    exact ht.bounded h
  | joinError text =>
    simp only [State.step] at hs
    split at hs
    · obtain rfl := Option.some.inj hs
      exact h.moved (.inl rfl) (.inr rfl) (.inl rfl)
    · obtain rfl := Option.some.inj hs
      exact h.moved (.inl rfl) (.inr rfl) (.inl rfl)
    · cases hs
  | abort =>
    simp only [State.step] at hs
    split_ifs at hs
    obtain rfl := Option.some.inj hs
    exact h.moved (.inr rfl) (.inl rfl) (.inr rfl)

theorem length_flatten_le {chunks : List (List UInt8)} {n : Nat}
    (h : ∀ chunk ∈ chunks, chunk.length ≤ n) : chunks.flatten.length ≤ chunks.length * n := by
  induction chunks with
  | nil => simp
  | cons chunk rest ih =>
    have hchunk := h chunk (by simp)
    have hrest := ih fun c hc => h c (by simp [hc])
    simp only [List.flatten_cons, List.length_append, List.length_cons, Nat.succ_mul]
    omega

theorem Bounded.inFlight (h : Bounded s) :
    s.inFlight.length ≤ (bufferChunks + 2) * chunkSize := by
  have hqueue : s.queue.flatten.length ≤ bufferChunks * chunkSize :=
    (length_flatten_le h.chunks).trans (Nat.mul_le_mul_right chunkSize h.queue)
  have hsending := h.sending
  have hwriting := h.writing
  simp only [State.inFlight, List.length_append, Nat.add_mul]
  omega

/-- At no time are more bytes held than the queue, the reader and the write have room for, and
the source is read no further ahead of the target than that. -/
theorem read_ahead_bounded (peers : Peers) (now : Nat) (as : List Act) (s : State)
    (h : Runs peers now as s) :
    s.queue.length ≤ bufferChunks ∧ s.inFlight.length ≤ (bufferChunks + 2) * chunkSize ∧
      (s.stage.over = false → (∀ text, s.reader ≠ some (.joinError text)) →
        s.taken.length ≤ s.delivered.length + (bufferChunks + 2) * chunkSize) := by
  have hempty : Bounded (.spawned now) :=
    ⟨Nat.zero_le _, (fun _ hc => nomatch hc), Nat.zero_le _, Nat.zero_le _⟩
  have hb : Bounded s := h.invariant hempty fun _ _ _ hb _ hs => bounded_step hb hs
  refine ⟨hb.queue, hb.inFlight, fun hopen hrunning => ?_⟩
  obtain ⟨lost, heq, hlost⟩ := (sound_run h).flow.conserved hopen
  rw [heq, hlost hrunning, List.append_nil, List.length_append]
  exact Nat.add_le_add_left hb.inFlight _

theorem read_ahead_bounded_buffered : ∃ s : State, s.inFlight = [1, 2, 3, 4, 5] ∧
    s.inFlight.length ≤ (bufferChunks + 2) * chunkSize := by
  obtain ⟨s, hrun, hs⟩ := Run.exists_of_runList
    (p := fun s : State => decide (s.inFlight = [1, 2, 3, 4, 5]))
    (show (runList (guarded (State.step Sample.pinned) fun _ _ => True) (.spawned 0)
      (Sample.buffered.take 7)).any _ = true by decide +kernel)
  obtain ⟨-, hbound, -⟩ := read_ahead_bounded Sample.pinned 0 _ s hrun
  exact ⟨s, of_decide_eq_true hs, hbound⟩

/-! ## What is left to do -/

/-- A connection pays for its own acceptance and for five steps a byte. -/
def Conn.weight (c : Conn) : Nat := 5 * c.stream.length + 1

def Stage.work : Stage → Nat
  | .acceptingSource => 5
  | .acceptingTarget => 4
  | .receiving => 3
  | .writing _ rest => rest.length + 4
  | .joining => 2
  | .closing => 1
  | .done _ | .aborted => 0

def readerWork : Option Reader → Nat
  | some .reading => 1
  | some (.sending chunk) => chunk.length + 4
  | _ => 0

/-- The steps that the tasks can still make, at most. -/
def State.work (s : State) : Nat :=
  s.stage.work + readerWork s.reader + 5 * s.left.length
    + (s.queue.map fun chunk => chunk.length + 2).sum
    + ((s.backlog .backup).map Conn.weight).sum + (s.backlog .restore).length

/-- A step of one of the two tasks. -/
def Act.own : Act → Nat
  | .task _ | .reader _ => 1
  | _ => 0

def Act.brought : Act → Nat
  | .connect .backup c => c.weight
  | .connect .restore _ => 1
  | _ => 0

theorem Stage.work_pos {stage : Stage} (h : stage.over = false) : 0 < stage.work := by
  cases stage <;> simp_all [Stage.over, Stage.work]

theorem Turn.lowers (ht : Turn peers s a s') : s'.work + 1 ≤ s.work := by
  cases ht with
  | rejected role c rest waiting refused =>
    cases role with
    | backup =>
      simp only [State.work, State.left, waiting, setAt, reduceCtorEq, if_true, if_false,
        List.map_cons, List.sum_cons, Conn.weight]
      omega
    | restore =>
      simp only [State.work, State.left, waiting, setAt, reduceCtorEq, if_true, if_false,
        List.length_cons]
      omega
  | acceptSource c rest stage waiting =>
    cases hserved : s.served .backup with
    | nil =>
      simp only [State.work, State.left, waiting, stage, hserved, setAt, reduceCtorEq, if_true,
        if_false, List.nil_append, List.map_cons, List.map_nil, List.sum_cons, List.sum_nil,
        List.length_drop, Conn.weight, Stage.work, readerWork]
      omega
    | cons d ds =>
      simp only [State.work, State.left, waiting, stage, hserved, setAt, reduceCtorEq, if_true,
        if_false, List.cons_append, List.map_cons, List.map_nil, List.sum_cons, List.sum_nil,
        List.length_drop, Conn.weight, Stage.work, readerWork]
      omega
  | acceptTarget c rest stage waiting =>
    simp only [State.work, State.left, waiting, stage, setAt, reduceCtorEq, if_true, if_false,
      List.length_cons, List.length_nil, Stage.work]
    omega
  | receive chunk rest stage queue =>
    simp only [State.work, State.left, stage, queue, List.map_cons, List.sum_cons, Stage.work]
    omega
  | drained stage =>
    simp only [State.work, State.left, stage, Stage.work]
    omega
  | write chunk rest n stage pos le =>
    simp only [State.work, State.left, stage, List.length_drop, Stage.work]
    omega
  | counted chunk stage =>
    simp only [State.work, State.left, stage, List.length_nil, Stage.work]
    omega
  | joined stage =>
    simp only [State.work, State.left, stage, Stage.work]
    omega
  | returned r stage result =>
    simp only [State.work, State.left, stage, Stage.work, State.finish, List.map_nil, List.sum_nil,
      List.length_nil]
    omega
  | failed e stage fault =>
    have hpos := Stage.work_pos stage
    have hnone : (Stage.done (.error e)).work = 0 := rfl
    simp only [State.work, State.finish, hnone, State.left, List.map_nil, List.sum_nil,
      List.length_nil]
    omega
  | read n reader pos le there =>
    cases hserved : s.served .backup with
    | nil =>
      simp only [State.left, hserved, List.length_nil] at there
      omega
    | cons c cs =>
      simp only [State.left, hserved, List.length_drop] at there
      simp only [State.work, State.left, hserved, reader, readerWork, List.length_append,
        List.length_take, List.length_drop]
      omega
  | ended reader | readError e reader | writerGone chunk e reader =>
    simp only [State.work, State.left, reader, readerWork]
    omega
  | push chunk reader room =>
    simp only [State.work, State.left, reader, readerWork, List.map_append, List.map_cons,
      List.map_nil, List.sum_append, List.sum_cons, List.sum_nil]
    omega

theorem brought_own (h : a.own = 1) : a.brought = 0 := by
  cases a <;> simp [Act.own, Act.brought] at h ⊢

/-- Every step of the tasks is paid for. -/
theorem step_pays (h : State.step peers s a = some s') : a.own + s'.work ≤ s.work + a.brought := by
  cases a with
  | connect role c =>
    simp only [State.step] at h
    split_ifs at h
    obtain rfl := Option.some.inj h
    cases role with
    | backup =>
      simp only [State.work, State.left, setAt, reduceCtorEq, if_true, if_false, List.map_append,
        List.map_cons, List.map_nil, List.sum_append, List.sum_cons, List.sum_nil, Act.own,
        Act.brought]
      omega
    | restore =>
      simp only [State.work, State.left, setAt, reduceCtorEq, if_true, if_false,
        List.length_append, List.length_cons, List.length_nil, Act.own, Act.brought]
      omega
  | tick secs =>
    obtain rfl := Option.some.inj h
    simp only [State.work, State.left, Act.own]
    omega
  | task io =>
    have hlow := (task_turns h).lowers
    simp only [Act.own, Act.brought]
    omega
  | reader io =>
    have ht : Turn peers s (.reader io) s' := reader_turns h
    have hlow := ht.lowers
    simp only [Act.own, Act.brought]
    omega
  | joinError text =>
    simp only [State.step] at h
    split at h
    · obtain rfl := Option.some.inj h
      simp only [State.work, State.left, Act.own, Act.brought, readerWork]
      omega
    · obtain rfl := Option.some.inj h
      simp only [State.work, State.left, Act.own, Act.brought, readerWork]
      omega
    · cases h
  | abort =>
    simp only [State.step] at h
    split_ifs at h
    obtain rfl := Option.some.inj h
    simp only [State.work, State.left, Act.own, Act.brought, Stage.work, List.map_nil,
      List.sum_nil, List.length_nil]
    omega

/-! ## The end is reached -/

/-- Both ends are connected or wait to be, and nothing has failed so far. -/
structure Supplied (peers : Peers) (s : State) : Prop where
  running : s.stage.over = false
  reader : ∀ r, s.reader = some r → r.failed = false
  source : s.served .backup = [] → ∃ c ∈ s.backlog .backup, admits (peers .backup) c = true
  target : s.served .restore = [] → ∃ c ∈ s.backlog .restore, admits (peers .restore) c = true

/-- The target has the stream of the source, and the task has returned. -/
def Delivered (s : State) : Prop :=
  ∃ c, s.served .backup = [c] ∧ s.delivered = c.stream ∧
    s.stage = .done (outcome c.stream.length)

theorem Sound.closing (h : Sound peers s) (hs : s.stage = .closing) :
    ∃ c, s.served .backup = [c] ∧ s.delivered = c.stream ∧ s.total = c.stream.length % 2 ^ 64 := by
  have hopen : s.stage.over = false := by rw [hs]; rfl
  obtain ⟨hqueue, hreader⟩ := h.ending.closing hs
  obtain ⟨lost, heq, hlost⟩ := h.flow.conserved hopen
  rw [hlost (by simp [hreader]), State.inFlight, hs, hqueue, hreader] at heq
  have hall : s.taken = s.delivered := by simpa [Stage.unwritten, unsent] using heq
  have htotal := h.counted.between (by simp [hs]) hopen
  have hone := h.ports.few .backup
  cases hserved : s.served .backup with
  | nil =>
    have hidle := (h.ports.sourceFirst hserved).2
    exact absurd (hidle.symm.trans hreader) (by simp)
  | cons c cs =>
    rw [hserved, List.length_cons] at hone
    obtain rfl : cs = [] := List.length_eq_zero_iff.mp (by omega)
    have hend : s.taken = c.stream := h.flow.atEnd hreader c (by simp [hserved])
    rw [hall] at hend
    exact ⟨c, rfl, hend, hend ▸ htotal⟩

/-- Who is left after one that was refused. -/
theorem admitted_rest {nets : List IpNet} {c : Conn} {rest : List Conn}
    (hrefused : admits nets c = false) (h : ∃ d ∈ c :: rest, admits nets d = true) :
    ∃ d ∈ rest, admits nets d = true := by
  obtain ⟨d, hd, hadmits⟩ := h
  rcases List.mem_cons.mp hd with rfl | hrest
  · rw [hrefused] at hadmits
    cases hadmits
  · exact ⟨d, hrest, hadmits⟩

/-- A step that leaves the connections alone. -/
theorem Supplied.moved (h : Supplied peers s) (hrunning : s'.stage.over = false)
    (hreader : ∀ r, s'.reader = some r → r.failed = false) (hserved : s'.served = s.served)
    (hbacklog : s'.backlog = s.backlog) : Supplied peers s' :=
  ⟨hrunning, hreader, by rw [hserved, hbacklog]; exact h.source,
    by rw [hserved, hbacklog]; exact h.target⟩

theorem Turn.supplied (ht : Turn peers s a s') (hsound : Sound peers s) (h : Supplied peers s)
    (hgo : cooperates s a = true) : Supplied peers s' ∨ Delivered s' := by
  cases ht with
  | rejected role c rest waiting refused =>
    refine .inl ⟨h.running, h.reader, fun hnone => ?_, fun hnone => ?_⟩
    · cases role with
      | backup =>
        have hthere := h.source hnone
        rw [waiting] at hthere
        simpa using admitted_rest refused hthere
      | restore => exact h.source hnone
    · cases role with
      | backup => exact h.target hnone
      | restore =>
        have hthere := h.target hnone
        rw [waiting] at hthere
        simpa using admitted_rest refused hthere
  | acceptSource c rest stage waiting =>
    refine .inl ⟨rfl, fun r hr => ?_, fun hnone => ?_, h.target⟩
    · obtain rfl := Option.some.inj hr
      rfl
    · simp at hnone
  | acceptTarget c rest stage waiting =>
    refine .inl ⟨rfl, h.reader, fun hnone => ?_, fun hnone => ?_⟩
    · exact absurd hnone (hsound.ports.noTarget stage).1
    · simp at hnone
  | receive chunk rest stage queue => exact .inl (h.moved rfl h.reader rfl rfl)
  | drained stage => exact .inl (h.moved rfl h.reader rfl rfl)
  | write chunk rest n stage pos le => exact .inl (h.moved rfl h.reader rfl rfl)
  | counted chunk stage => exact .inl (h.moved rfl h.reader rfl rfl)
  | joined stage => exact .inl (h.moved rfl h.reader rfl rfl)
  | returned r stage result =>
    obtain ⟨c, hserved, hall, htotal⟩ := hsound.closing stage
    have hlt : s.total < 2 ^ 64 := htotal ▸ Nat.mod_lt _ (by decide)
    have hr : r = outcome c.stream.length := by
      rw [result hlt, htotal, outcome, outcome, Nat.mod_mod]
    exact .inr ⟨c, hserved, hall, congrArg Stage.done hr⟩
  | failed e stage fault =>
    rcases fault with hfault | ⟨r, hr, hfailed⟩
    · rw [hgo] at hfault
      cases hfault
    · rw [h.reader r hr] at hfailed
      cases hfailed
  | read n reader pos le there =>
    refine .inl (h.moved h.running (fun r hr => ?_) rfl rfl)
    obtain rfl := Option.some.inj hr
    rfl
  | ended reader =>
    refine .inl (h.moved h.running (fun r hr => ?_) rfl rfl)
    obtain rfl := Option.some.inj hr
    rfl
  | readError e reader fault =>
    rw [hgo] at fault
    cases fault
  | push chunk reader room =>
    refine .inl (h.moved h.running (fun r hr => ?_) rfl rfl)
    obtain rfl := Option.some.inj hr
    rfl
  | writerGone chunk e reader stage =>
    rw [h.running] at stage
    cases stage

/-- What has been delivered stays so. -/
theorem Turn.delivered (ht : Turn peers s a s') (h : Delivered s) : Delivered s' := by
  obtain ⟨c, hserved, hall, hstage⟩ := h
  cases ht with
  | rejected | read | ended | readError | push | writerGone => exact ⟨c, hserved, hall, hstage⟩
  | acceptSource d rest stage | acceptTarget d rest stage | receive d rest stage | drained stage
    | write d rest n stage | counted d stage | joined stage | returned r stage =>
    rw [hstage] at stage
    cases stage
  | failed e stage =>
    rw [hstage] at stage
    cases stage

/-- Whoever was accepted as the source has a reader. -/
def Manned (s : State) : Prop := s.served .backup ≠ [] → s.reader.isSome = true

theorem manned_step (h : Manned s) (hs : State.step peers s a = some s') : Manned s' := by
  cases step_moves hs with
  | around | receive | drained | write | counted | joined | returned | failed | aborted => exact h
  | acceptSource | read | ended | readError | push | writerGone | joinError => exact fun _ => rfl
  | acceptTarget c backlog stage admitted =>
    intro hserved
    have hsame : setAt s.served .restore (s.served .restore ++ [c]) .backup = s.served .backup :=
      setAt_other _ _ (by decide)
    exact h (hsame ▸ hserved)

/-- A relay on its way to the end, or at it. -/
structure Completing (peers : Peers) (s : State) : Prop where
  sound : Sound peers s
  manned : Manned s
  due : Supplied peers s ∨ Delivered s

theorem Sound.step (h : Sound peers s) (hs : State.step peers s a = some s') : Sound peers s' := by
  have hm := step_moves hs
  exact ⟨hm.ports h.ports, hm.flow h.ports h.flow, hm.counts h.ports h.counted,
    hm.ending h.flow h.counted h.ending⟩

theorem Turn.completing (ht : Turn peers s a s') (hsound : Sound peers s)
    (h : Supplied peers s ∨ Delivered s) (hgo : cooperates s a = true) :
    Supplied peers s' ∨ Delivered s' := by
  rcases h with hsupplied | hdelivered
  · exact ht.supplied hsound hsupplied hgo
  · exact .inr (ht.delivered hdelivered)

theorem Completing.step (h : Completing peers s) (hgo : cooperates s a = true)
    (hs : State.step peers s a = some s') : Completing peers s' := by
  refine ⟨h.sound.step hs, manned_step h.manned hs, ?_⟩
  obtain ⟨hsound, -, h⟩ := h
  cases a with
  | connect role c =>
    simp only [State.step] at hs
    split_ifs at hs with hlistens
    obtain rfl := Option.some.inj hs
    have hmore : ∀ r, ∀ d ∈ s.backlog r, d ∈ setAt s.backlog role (s.backlog role ++ [c]) r := by
      intro r d hd
      by_cases hr : r = role
      · subst hr
        simp [hd]
      · rwa [setAt_other _ _ hr]
    rcases h with hsupplied | ⟨d, hserved, hall, hstage⟩
    · refine .inl ⟨hsupplied.running, hsupplied.reader, fun hnone => ?_, fun hnone => ?_⟩
      · obtain ⟨d, hd, hadmits⟩ := hsupplied.source hnone
        exact ⟨d, hmore _ d hd, hadmits⟩
      · obtain ⟨d, hd, hadmits⟩ := hsupplied.target hnone
        exact ⟨d, hmore _ d hd, hadmits⟩
    · exact .inr ⟨d, hserved, hall, hstage⟩
  | tick secs =>
    obtain rfl := Option.some.inj hs
    rcases h with hsupplied | hdelivered
    · exact .inl (hsupplied.moved hsupplied.running hsupplied.reader rfl rfl)
    · exact .inr hdelivered
  | task io => exact (task_turns hs).completing hsound h hgo
  | reader io =>
    have ht : Turn peers s (.reader io) s' := reader_turns hs
    exact ht.completing hsound h hgo
  | joinError text => cases hgo
  | abort => cases hgo

/-- A port with a peer at it is taken or passed on. -/
theorem accept_next {role : Role} {kept : State → State}
    (h : ∃ c ∈ s.backlog role, admits (peers role) c = true) :
    (s.acceptFrom peers role kept (.ok 1)).isSome = true := by
  obtain ⟨c, hc, -⟩ := h
  cases hbacklog : s.backlog role with
  | nil => simp [hbacklog] at hc
  | cons d rest =>
    simp only [State.acceptFrom, hbacklog]
    split <;> rfl

/-- A relay that has all it needs is never stuck. -/
theorem Supplied.next (h : Supplied peers s) (hsound : Sound peers s) (hmanned : Manned s) :
    ∃ a s', a.own = 1 ∧ cooperates s a = true ∧ State.step peers s a = some s' := by
  have htask (hs : (s.taskStep peers (.ok 1)).isSome = true) :
      ∃ a s', a.own = 1 ∧ cooperates s a = true ∧ State.step peers s a = some s' := by
    obtain ⟨s', hs'⟩ := Option.isSome_iff_exists.mp hs
    exact ⟨.task (.ok 1), s', rfl, rfl, hs'⟩
  have hread (n : Nat) (hs : (s.readerStep (.ok n)).isSome = true) :
      ∃ a s', a.own = 1 ∧ cooperates s a = true ∧ State.step peers s a = some s' := by
    obtain ⟨s', hs'⟩ := Option.isSome_iff_exists.mp hs
    exact ⟨.reader (.ok n), s', rfl, rfl, hs'⟩
  cases hstage : s.stage with
  | acceptingSource =>
    refine htask ?_
    simp only [State.taskStep, hstage]
    exact accept_next (h.source (hsound.ports.noSource hstage))
  | acceptingTarget =>
    refine htask ?_
    simp only [State.taskStep, hstage]
    exact accept_next (h.target (hsound.ports.noTarget hstage).2)
  | receiving =>
    cases hqueue : s.queue with
    | cons chunk rest => exact htask (by simp [State.taskStep, hstage, hqueue])
    | nil =>
      have hboth : s.served .restore ≠ [] := hsound.ports.both (by rw [hstage]; rfl)
      have hsource : s.served .backup ≠ [] := fun hnone => hboth (hsound.ports.sourceFirst hnone).1
      obtain ⟨r, hreader⟩ := Option.isSome_iff_exists.mp (hmanned hsource)
      cases r with
      | reading =>
        by_cases hleft : s.left = []
        · exact hread 0 (by simp [State.readerStep, hreader, hleft])
        · have hpos : 1 ≤ s.left.length := List.length_pos_iff.mpr hleft
          exact hread 1 (by simp [State.readerStep, hreader, chunkSize, hpos])
      | sending chunk =>
        exact hread 0 (by simp [State.readerStep, hreader, h.running, hqueue, bufferChunks])
      | finished result => exact htask (by simp [State.taskStep, hstage, hqueue, hreader])
      | joinError text => exact htask (by simp [State.taskStep, hstage, hqueue, hreader])
  | writing chunk rest =>
    cases rest with
    | nil => exact htask (by simp [State.taskStep, hstage])
    | cons b bs => exact htask (by simp [State.taskStep, hstage])
  | joining =>
    obtain ⟨-, r, hreader, hclosed⟩ := hsound.ending.joining hstage
    cases r with
    | reading | sending => cases hclosed
    | finished result => cases result <;> exact htask (by simp [State.taskStep, hstage, hreader])
    | joinError text => exact htask (by simp [State.taskStep, hstage, hreader])
  | closing => exact htask (by simp only [State.taskStep, hstage]; split <;> rfl)
  | done r =>
    have hrunning := h.running
    rw [hstage] at hrunning
    cases hrunning
  | aborted =>
    have hrunning := h.running
    rw [hstage] at hrunning
    cases hrunning

/-- A run in which nothing fails. -/
abbrev Undisturbed (peers : Peers) : State → List Act → State → Prop :=
  Run (State.step peers) fun s a => cooperates s a = true

/-- In no run do the tasks make more steps than the connections account for. With both ends there
and nothing failing, they always have a next step until the stream is delivered, and so all of
it is delivered in the end. -/
theorem relay_completes (peers : Peers) (now : Nat) (as : List Act) (s : State)
    (h : Runs peers now as s) :
    (as.map Act.own).sum + s.work ≤ 5 + (as.map Act.brought).sum ∧
      (Supplied peers s →
        (∀ bs t, Undisturbed peers s bs t → Delivered t ∨
          ∃ a t', a.own = 1 ∧ cooperates t a = true ∧ State.step peers t a = some t') ∧
        ∃ bs t, Undisturbed peers s bs t ∧ Delivered t) := by
  have hmanned : Manned s :=
    h.invariant (fun hnone => absurd rfl hnone) fun _ _ _ hm _ hs => manned_step hm hs
  have hkept : ∀ t a t', Completing peers t → cooperates t a = true →
      State.step peers t a = some t' → Completing peers t' :=
    fun _ _ _ ht hgo hs => ht.step hgo hs
  refine ⟨h.amortized fun _ _ _ _ hs => step_pays hs, fun hsupplied => ?_⟩
  have hstart : Completing peers s := ⟨sound_run h, hmanned, .inl hsupplied⟩
  refine ⟨fun bs t hrun => ?_, ?_⟩
  · have ht : Completing peers t := hrun.invariant hstart hkept
    rcases ht.due with hmore | hdelivered
    · exact .inr (hmore.next ht.sound ht.manned)
    · exact .inl hdelivered
  · have hlower : ∀ t, Completing peers t → Delivered t ∨ ∃ a t', cooperates t a = true ∧
        State.step peers t a = some t' ∧ t'.work < t.work := by
      intro t ht
      rcases ht.due with hmore | hdelivered
      · obtain ⟨a, t', hown, hgo, hs⟩ := hmore.next ht.sound ht.manned
        have hpays := step_pays hs
        rw [hown, brought_own hown] at hpays
        exact .inr ⟨a, t', hgo, hs, by omega⟩
      · exact .inl hdelivered
    obtain ⟨bs, t, hrun, -, hdelivered⟩ := Run.reaches hkept hlower hstart
    exact ⟨bs, t, hrun, hdelivered⟩

/-- Both ends have called, the target after somebody else. -/
def Sample.called : List Act :=
  [.connect .backup source, .connect .restore stranger, .connect .restore target]

theorem relay_completes_called : ∃ s bs t, Runs Sample.pinned 0 Sample.called s ∧
    Undisturbed Sample.pinned s bs t ∧ Delivered t := by
  obtain ⟨s, hrun, hs⟩ := Run.exists_of_runList
    (p := fun s : State => !s.stage.over && s.reader.isNone &&
      (s.backlog .backup).any (admits (Sample.pinned .backup)) &&
      (s.backlog .restore).any (admits (Sample.pinned .restore)))
    (show (runList (guarded (State.step Sample.pinned) fun _ _ => True) (.spawned 0)
      Sample.called).any _ = true by decide +kernel)
  simp only [Bool.and_eq_true, Bool.not_eq_true', Option.isNone_iff_eq_none, List.any_eq_true,
    and_assoc] at hs
  obtain ⟨hopen, hreader, hsource, htarget⟩ := hs
  have hsupplied : Supplied Sample.pinned s :=
    ⟨hopen, (fun r hr => nomatch hreader.symm.trans hr), fun _ => hsource, fun _ => htarget⟩
  obtain ⟨bs, t, hend, hdelivered⟩ :=
    ((relay_completes Sample.pinned 0 Sample.called s hrun).2 hsupplied).2
  exact ⟨s, bs, t, hrun, hend, hdelivered⟩

end ZfsEvacuation.RelayTask
