import Mgd.Lib.Run

/-!
# The control socket and its connections

`bind_socket` binds the socket of the session.  Where the path is in use it connects
to find out whether anyone listens, and takes the file of a crashed daemon away.
Between the failed connect and the removal another daemon may have bound the path;
`listener_served_iff` says that this is the only way for a listener to lose its path.

`run_server` serves at most `MAX_CONNECTIONS` connections, each in its own thread.
The threads end in any order and at any moment, and the counter is read with relaxed
ordering, so the accepting thread may see a value that is out of date.
`connections_capped` holds all the same.
-/

namespace Mgd.IpcServer

open Mgd.Lib.Run

universe u

/-! ## The socket -/

/-- Where a daemon is in `bind_socket` and `run_server`. -/
inductive BindPc
  | down
  | binding
  /-- The address is in use; who listens is still to be asked. -/
  | inUse
  /-- Nobody listened; the file is still to be removed. -/
  | stale
  | removed
  | listening
  /-- The server thread has returned, or the daemon is gone. -/
  | returned
deriving DecidableEq

/-- The daemons of one session, one after the other or at the same time.  `bind`
and `listen` of one listener are one move, and so are the removal of the file and
the drop of the listener when the server ends. -/
structure Session (ι : Type u) where
  /-- whose listener the file at the socket path belongs to -/
  socket : Option ι
  pc : ι → BindPc

inductive BindMove (ι : Type u)
  | start (i : ι)
  | bind (i : ι)
  /-- `bind` fails otherwise than with `EADDRINUSE`. -/
  | bindFails (i : ι)
  | connect (i : ι)
  | removeFile (i : ι)
  | rebind (i : ι)
  /-- `run_server` ends: it removes the file and drops the listener. -/
  | shutdown (i : ι)
  | crash (i : ι)

variable {ι : Type u} [DecidableEq ι]

namespace Session

def start : Session ι where
  socket := none
  pc := fun _ => .down

def setPc (s : Session ι) (i : ι) (pc : BindPc) : Session ι :=
  { s with pc := fun j => if j = i then pc else s.pc j }

/-- A connect is accepted. -/
def answers (s : Session ι) : Bool := s.socket.any fun j => decide (s.pc j = .listening)

/-- `UnixListener::bind` -/
def tryBind (s : Session ι) (i : ι) (failed : BindPc) : Session ι :=
  if s.socket.isNone then { s.setPc i .listening with socket := some i } else s.setPc i failed

/-- A move that does not fit where the daemon is does nothing. -/
def step (s : Session ι) : BindMove ι → Session ι
  | .start i => if s.pc i = .down then s.setPc i .binding else s
  | .bind i => if s.pc i = .binding then s.tryBind i .inUse else s
  | .bindFails i => if s.pc i = .binding then s.setPc i .returned else s
  | .connect i =>
      if s.pc i = .inUse then s.setPc i (if s.answers then .returned else .stale) else s
  | .removeFile i => if s.pc i = .stale then { s.setPc i .removed with socket := none } else s
  | .rebind i => if s.pc i = .removed then s.tryBind i .returned else s
  | .shutdown i =>
      if s.pc i = .listening then { s.setPc i .returned with socket := none } else s
  | .crash i => if s.pc i = .down then s else s.setPc i .returned

/-- Every listener has the path, so there is at most one and it is reached. -/
def Served (s : Session ι) : Prop := ∀ i, s.pc i = .listening → s.socket = some i

/-- The file that is removed belongs to a listener. -/
def TakesOver (s : Session ι) : BindMove ι → Prop
  | .removeFile i => s.pc i = .stale ∧ s.answers = true
  | _ => False

omit [DecidableEq ι] in
theorem answers_iff (s : Session ι) :
    s.answers = true ↔ ∃ j, s.socket = some j ∧ s.pc j = .listening := by
  unfold answers
  cases s.socket with
  | none => simp
  | some j => simp

/-- Moving a daemon to where it does not listen. -/
theorem Served.setPc {s : Session ι} (h : s.Served) (i : ι) {pc : BindPc} (hPc : pc ≠ .listening) :
    (s.setPc i pc).Served := by
  intro j hj
  unfold Session.setPc at hj ⊢
  dsimp only at hj ⊢
  by_cases hSame : j = i
  · rw [if_pos hSame] at hj
    exact absurd hj hPc
  · rw [if_neg hSame] at hj
    exact h j hj

theorem Served.tryBind {s : Session ι} (h : s.Served) (i : ι) {failed : BindPc}
    (hPc : failed ≠ .listening) : (s.tryBind i failed).Served := by
  unfold Session.tryBind
  split
  · next hFree =>
      intro j hj
      by_cases hSame : j = i
      · rw [hSame]
      · have hOther : s.pc j = .listening := by
          unfold Session.setPc at hj
          simpa [hSame] using hj
        rw [h j hOther] at hFree
        cases hFree
  · exact h.setPc i hPc

/-- Without the file nobody may be listening. -/
theorem served_removed_iff (s : Session ι) (i : ι) {pc : BindPc} (hPc : pc ≠ .listening) :
    ({ s.setPc i pc with socket := none } : Session ι).Served ↔
      ∀ j, j ≠ i → s.pc j ≠ .listening := by
  unfold Served Session.setPc
  dsimp only
  constructor
  · intro h j hOther hListens
    have hGone := h j (by rw [if_neg hOther]; exact hListens)
    cases hGone
  · intro h j hj
    by_cases hSame : j = i
    · rw [if_pos hSame] at hj
      exact absurd hj hPc
    · rw [if_neg hSame] at hj
      exact absurd hj (h j hSame)

omit [DecidableEq ι] in
/-- A move that fits keeps the listeners, one that does not changes nothing. -/
theorem Served.ite {s t : Session ι} {p : Prop} [Decidable p] (h : s.Served)
    (hMoved : p → t.Served) : (if p then t else s).Served := by
  split
  · next hp => exact hMoved hp
  · exact h

/-- What one move does to the listeners. -/
theorem served_step_iff {s : Session ι} (h : s.Served) (m : BindMove ι) :
    (s.step m).Served ↔ ¬ s.TakesOver m := by
  cases m with
  | start i => exact iff_of_true (h.ite fun _ => h.setPc i (by decide)) id
  | bind i => exact iff_of_true (h.ite fun _ => h.tryBind i (by decide)) id
  | bindFails i => exact iff_of_true (h.ite fun _ => h.setPc i (by decide)) id
  | connect i =>
      exact iff_of_true (h.ite fun _ => h.setPc i (by cases s.answers <;> decide)) id
  | removeFile i =>
      rw [step, TakesOver]
      by_cases hStale : s.pc i = .stale
      · rw [if_pos hStale, served_removed_iff s i (by decide), answers_iff]
        constructor
        · rintro hNobody ⟨-, j, -, hj⟩
          refine hNobody j ?_ hj
          rintro rfl
          rw [hStale] at hj
          cases hj
        · intro hFree j _ hj
          exact hFree ⟨hStale, j, h j hj, hj⟩
      · rw [if_neg hStale]
        exact iff_of_true h fun hTakes => hStale hTakes.1
  | rebind i => exact iff_of_true (h.ite fun _ => h.tryBind i (by decide)) id
  | shutdown i =>
      refine iff_of_true (h.ite fun hListens => ?_) id
      -- its own file, so there is no other listener
      refine (served_removed_iff s i (by decide)).mpr fun j hOther hj => ?_
      have hSame : some j = some i := (h j hj).symm.trans (h i hListens)
      exact hOther (Option.some.inj hSame)
  | crash i =>
      refine iff_of_true ?_ id
      rw [step]
      split
      · exact h
      · exact h.setPc i (by decide)

/-- **A listener loses its path to a removal alone.**  Along every run of any number
of daemons that start, shut down and crash at any moment, there is at most one
listener and it has the path, exactly if no daemon removes the file of a listener
that came up after nobody answered it. -/
theorem listener_served_iff (moves : List (BindMove ι)) :
    Always step Served (start : Session ι) moves ↔
      EveryStep step (fun s m => ¬ s.TakesOver m) (start : Session ι) moves := by
  have hServed : (Session.start : Session ι).Served := fun i hi => by cases hi
  have hAll : EveryStep step (fun _ _ => True) (Session.start : Session ι) moves :=
    everyStep_true Session.start moves
  have hStep : ∀ (s : Session ι) m, True → True → s.Served →
      ((s.step m).Served ↔ ¬ s.TakesOver m) := fun _ m _ _ h => served_step_iff h m
  exact always_iff_everyStep (fun _ _ _ _ _ _ => trivial) hStep hAll trivial hServed

/-- Two daemons find the file of a crashed one, and remove it one after the other. -/
def twoStarts : List (BindMove (Fin 3)) :=
  [.start 0, .bind 0, .crash 0, .start 1, .start 2, .bind 1, .bind 2, .connect 1, .connect 2,
    .removeFile 1, .rebind 1, .removeFile 2, .rebind 2]

example : (run step start twoStarts).pc 1 = .listening ∧
    (run step start twoStarts).pc 2 = .listening := by decide

end Session

/-! ## The connections -/

def MAX_CONNECTIONS : Nat := 32

/-- Where the accepting thread is. -/
inductive AcceptPc
  | accepting
  /-- A stream was accepted, the counter is to be read. -/
  | accepted
  /-- The counter was below the limit, it is to be raised. -/
  | admitted
  /-- The counter was raised, the thread is to be started. -/
  | counted
deriving DecidableEq

structure Server where
  activeConns : Nat
  pc : AcceptPc
  /-- the threads of connections that have not ended -/
  handlers : Nat
  /-- the counter as the accepting thread last left it -/
  lastWritten : Nat

inductive ConnMove
  | accept
  /-- A relaxed load: any value since the last write of the thread itself. -/
  | load (value : Nat)
  | fetchAdd
  | spawn
  /-- A connection ends, also by a panic: its `ConnGuard` is dropped. -/
  | finish

namespace Server

def start : Server where
  activeConns := 0
  pc := .accepting
  handlers := 0
  lastWritten := 0

/-- A value the load may give: others only lower the counter. -/
def Loads (s : Server) (value : Nat) : Prop :=
  s.pc = .accepted ∧ s.activeConns ≤ value ∧ value ≤ s.lastWritten

instance (s : Server) (value : Nat) : Decidable (s.Loads value) :=
  inferInstanceAs (Decidable (_ ∧ _))

/-- A move that does not fit does nothing. -/
def step (s : Server) : ConnMove → Server
  | .accept => if s.pc = .accepting then { s with pc := .accepted } else s
  | .load value =>
      if s.Loads value then
        { s with pc := if value ≥ MAX_CONNECTIONS then .accepting else .admitted }
      else s
  | .fetchAdd =>
      if s.pc = .admitted then
        { s with
          activeConns := s.activeConns + 1
          lastWritten := s.activeConns + 1
          pc := .counted }
      else s
  | .spawn =>
      if s.pc = .counted then { s with handlers := s.handlers + 1, pc := .accepting } else s
  | .finish =>
      if s.handlers = 0 then s
      else { s with handlers := s.handlers - 1, activeConns := s.activeConns - 1 }

/-- The counter counts the threads, and the limit is kept. -/
structure Capped (s : Server) : Prop where
  counts : s.activeConns = s.handlers + if s.pc = .counted then 1 else 0
  limit : s.handlers ≤ MAX_CONNECTIONS

/-- A stream is dropped only if the limit was reached when the last thread was
started. -/
def RefusesFull (s : Server) : ConnMove → Prop
  | .load value => s.Loads value → MAX_CONNECTIONS ≤ value → s.lastWritten = MAX_CONNECTIONS
  | _ => True

structure Inv (s : Server) : Prop where
  counts : s.activeConns = s.handlers + if s.pc = .counted then 1 else 0
  room : s.pc = .admitted → s.activeConns < MAX_CONNECTIONS
  written : s.activeConns ≤ s.lastWritten
  limit : s.lastWritten ≤ MAX_CONNECTIONS

theorem inv_start : Inv start where
  counts := rfl
  room := nofun
  written := Nat.le_refl 0
  limit := Nat.zero_le _

theorem inv_step {s : Server} (h : Inv s) (m : ConnMove) : Inv (s.step m) := by
  have hCounts := h.counts
  have hWritten := h.written
  have hLimit := h.limit
  cases m with
  | accept =>
      rw [step]
      split
      · next hPc =>
          rw [hPc] at hCounts
          exact { counts := hCounts, room := nofun, written := hWritten, limit := hLimit }
      · exact h
  | load value =>
      rw [step]
      split
      · next hLoads =>
          obtain ⟨hPc, hCurrent, -⟩ := hLoads
          rw [hPc] at hCounts
          by_cases hFull : value ≥ MAX_CONNECTIONS
          · rw [if_pos hFull]
            exact { counts := hCounts, room := nofun, written := hWritten, limit := hLimit }
          · rw [if_neg hFull]
            -- what the counter is now is not above what was read
            have hRoom : s.activeConns < MAX_CONNECTIONS := by omega
            exact
              { counts := hCounts
                room := fun _ => hRoom
                written := hWritten
                limit := hLimit }
      · exact h
  | fetchAdd =>
      rw [step]
      split
      · next hPc =>
          have hRoom := h.room hPc
          rw [hPc] at hCounts
          exact
            { counts := by simpa using hCounts
              room := nofun
              written := Nat.le_refl _
              limit := hRoom }
      · exact h
  | spawn =>
      rw [step]
      split
      · next hPc =>
          rw [hPc] at hCounts
          exact
            { counts := by simpa using hCounts
              room := nofun
              written := hWritten
              limit := hLimit }
      · exact h
  | finish =>
      rw [step]
      split
      · exact h
      · next hSome =>
          exact
            { counts := by dsimp only; omega
              room := fun hPc => Nat.lt_of_le_of_lt (Nat.sub_le _ 1) (h.room hPc)
              written := Nat.le_trans (Nat.sub_le _ 1) hWritten
              limit := hLimit }

theorem Inv.capped {s : Server} (h : Inv s) : Capped s where
  counts := h.counts
  limit := by
    have hCounts := h.counts
    have hWritten := h.written
    have hLimit := h.limit
    omega

/-- **The connections are counted and capped** in every interleaving of the accepting
thread with the ends of the others, whatever the relaxed loads give; and a stream is
dropped only where the limit had been reached. -/
theorem connections_capped (moves : List ConnMove) :
    Always step Capped start moves ∧ EveryStep step RefusesFull start moves := by
  have hAll : EveryStep step (fun _ _ => True) start moves := everyStep_true start moves
  constructor
  · have hInv : Always step Inv start moves :=
      always_of_invariant (fun _ m h _ => inv_step h m) inv_start hAll
    exact hInv.imp fun _ h => h.capped
  · refine everyStep_of_invariant (fun s m (h : Inv s) _ => inv_step h m) ?_ inv_start hAll
    intro s m h _
    cases m with
    | load value =>
        intro hLoads hFull
        exact Nat.le_antisymm h.limit (Nat.le_trans hFull hLoads.2.2)
    | accept => trivial
    | fetchAdd => trivial
    | spawn => trivial
    | finish => trivial

end Server

end Mgd.IpcServer
