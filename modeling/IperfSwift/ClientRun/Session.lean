import IperfSwift.ClientRun.Ending
import IperfSwift.Server.Ending

/-!
Contract: one client run and one server run on one control connection.

Owns: the session, and what a client leaves behind when the other side is the
server of this program.

Does not own: the two runs, and what each of them leaves behind on its own.
-/

set_option autoImplicit false

namespace IperfSwift.ClientRun

open IperfSwift.Server (TEST_END DISPLAY_RESULTS IPERF_DONE)

/-- One client run and one server run. Each reads only what the other has sent; nothing else is said
about when they send and read, or about how far the server gets. -/
structure Session where
  client : Run
  clientAllowance : Nat
  clientIdle : Idle client
  server : Server.Run
  serverAllowance : Nat
  serverIdle : Server.Idle server
  clientHears : (iperfRunClient clientAllowance client).2.received ⊆
    (Server.iperfRunServer serverAllowance server).2.sent
  serverHears : (Server.iperfRunServer serverAllowance server).2.received ⊆
    (iperfRunClient clientAllowance client).2.sent

namespace Session

variable (session : Session)

def clientOutcome : Option Int :=
  (iperfRunClient session.clientAllowance session.client).1

def clientFinal : Run :=
  (iperfRunClient session.clientAllowance session.client).2

def serverFinal : Server.Run :=
  (Server.iperfRunServer session.serverAllowance session.server).2

/-- What the server has sent is what it may send, also if it is still running. -/
theorem server_spoken : Server.Spoken session.serverFinal.view :=
  (Server.idle_iperfRunServer session.serverAllowance session.server
    session.serverIdle).spoken

theorem client_not_done : IPERF_DONE ∉ session.clientFinal.received := fun done =>
  (session.server_spoken IPERF_DONE (session.clientHears done)).1 rfl

/-- A client is told to show the results only when the server has read its `TEST_END`. -/
theorem ended_of_display (shows : DISPLAY_RESULTS ∈ session.clientFinal.received) :
    TEST_END ∈ session.serverFinal.received :=
  (session.server_spoken DISPLAY_RESULTS (session.clientHears shows)).2 rfl

theorem client_returned {code : Int} (returns : session.clientOutcome = some code) :
    Returned session.client session.clientFinal :=
  session.clientIdle.returned (Prod.ext returns rfl)

end Session

/-- In a session with this program's server, a client that returns has joined the worker of every
stream and closed its descriptor exactly once, if every worker can be joined. It has failed, or it
has shown the results and the server has read its `TEST_END`, or it has not connected, sent or
received anything. -/
theorem session_client_leaves_nothing {session : Session} {code : Int}
    (returns : session.clientOutcome = some code) (joins : Sure session.clientFinal) :
    (∀ stream ∈ session.clientFinal.streams, stream.live = false ∧ stream.closed = 1) ∧
      (.failed ∈ session.clientFinal.events ∨
        .displayed ∈ session.clientFinal.events ∧ TEST_END ∈ session.serverFinal.received ∨
        Unopened session.client session.clientFinal) := by
  rcases session.client_returned returns with finished | unopened
  · -- Without `IPERF_DONE` the run has failed or has shown the results; either excludes a worker.
    have ends : .failed ∈ session.clientFinal.events ∨
        .displayed ∈ session.clientFinal.events ∧
          TEST_END ∈ session.serverFinal.received := by
      rcases finished.reason with failed | ⟨shown, told⟩ | done
      · exact .inl failed
      · exact .inr ⟨shown, session.ended_of_display told⟩
      · exact absurd done session.client_not_done
    refine ⟨fun stream listed => ⟨?_, ?_⟩, ends.imp_right .inl⟩
    · by_contra live
      obtain ⟨-, running, succeeds⟩ :=
        finished.worker joins stream listed (Bool.not_eq_false _ ▸ live)
      rcases ends with failed | ⟨-, told⟩
      · exact succeeds failed
      · exact running (finished.told (session.serverHears told))
    · rw [finished.closed joins stream listed, if_pos]
      exact ends.elim .inr fun shown => .inl shown.1
  · refine ⟨?_, .inr (.inr unopened)⟩
    simp [unopened.streams]

/-- An upload that ends for its duration, with a server that shows the results. -/
def sampleSession : Session where
  client := uploadRun
  clientAllowance := 7
  clientIdle := sampleRun_idle _ _
  server := Server.endedRun
  serverAllowance := 3
  serverIdle := Server.sampleRun_idle _
  clientHears := by decide +kernel
  serverHears := by decide +kernel

theorem sampleSession_leaves_nothing :
    sampleSession.clientFinal.streams.length = 1 ∧
      ∀ stream ∈ sampleSession.clientFinal.streams, stream.live = false ∧ stream.closed = 1 :=
  ⟨by decide +kernel, (@session_client_leaves_nothing sampleSession 0 (by decide +kernel)
    fun _ _ => by rfl).1⟩

end IperfSwift.ClientRun
