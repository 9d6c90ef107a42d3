/-
One client among others.  The whole server takes its turns, with all of its connections,
while the client makes its calls; to the connection of the client this is a talk.
-/
import Wiiland.Daemon.TalkRuns

namespace Wiiland

namespace Daemon

open Ipc

namespace Talk

/-- A server and a talk with one of its connections. -/
structure Hosted where
  server : IpcServer
  talk : Talk

/-- A call of the client, or a turn of the server that keeps the connection. -/
inductive Hosted.Step (codec : Codec) (token : UInt64) : Hosted → Hosted → Prop
  | client {server : IpcServer} {talk next : Talk} (hstep : Talk.Step codec talk next)
      (hconn : next.conn = talk.conn) : Step codec token ⟨server, talk⟩ ⟨server, next⟩
  | server {server later : IpcServer} {talk : Talk} {conn : Client}
      (consumed : List ReadAnswer)
      (hturn : IpcServer.Turn codec Client.answersTaken server later)
      (hkept : (token, conn) ∈ later.clients)
      (hconsumed : talk.conn.stream.reads = consumed ++ conn.stream.reads)
      (hheard : talk.heard ++ consumed.flatMap Client.gave <+: talk.client.written) :
      Step codec token ⟨server, talk⟩ ⟨later, { talk with
        conn
        heard := talk.heard ++ consumed.flatMap Client.gave }⟩

abbrev Hosted.Steps (codec : Codec) (token : UInt64) : Hosted → Hosted → Prop :=
  Relation.ReflTransGen (Hosted.Step codec token)

/-- The talk is with the connection of the token. -/
structure Hosted.At (token : UInt64) (hosted : Hosted) : Prop where
  conn : (token, hosted.talk.conn) ∈ hosted.server.clients
  distinct : hosted.server.Distinct

theorem distinct_conn {server : IpcServer} (hdistinct : server.Distinct) {token : UInt64}
    {conn other : Client} (hconn : (token, conn) ∈ server.clients)
    (hother : (token, other) ∈ server.clients) : other = conn := by
  have hnodup := (List.nodup_cons.mp hdistinct).2
  have hsame := List.inj_on_of_nodup_map hnodup hother hconn rfl
  exact congrArg Prod.snd hsame

variable {codec : Codec} {token : UInt64} {hosted later : Hosted}

/-- A step of the hosted talk is at most a step of the talk. -/
theorem Hosted.Step.talk (hstep : Hosted.Step codec token hosted later)
    (hat : hosted.At token) :
    later.At token ∧ Talk.Steps codec hosted.talk later.talk := by
  cases hstep with
  | client hstep hconn => exact ⟨⟨hconn ▸ hat.conn, hat.distinct⟩, .single hstep⟩
  | @server server after talk conn consumed hturn hkept hconsumed hheard =>
      refine ⟨⟨hkept, hturn.distinct hat.distinct⟩, ?_⟩
      rcases hturn.step _ hkept with ⟨_, hfree⟩ | ⟨client, hclient, hone⟩
      · exact absurd (List.mem_map_of_mem hat.conn) hfree
      · obtain rfl := distinct_conn hat.distinct hat.conn hclient
        rcases hone with hsame | hone
        · have hnone : consumed = [] := by
            rw [show conn = talk.conn from hsame] at hconsumed
            exact List.append_left_eq_self.mp hconsumed.symm
          subst hnone
          rw [show conn = talk.conn from hsame, List.flatMap_nil, List.append_nil]
        · exact .single (.daemon consumed hone hconsumed hheard)

/-- Whatever the server does for its other clients, a client sees a talk with its own
connection, up to its first request or poll that fails: what holds of every talk holds of
it. -/
theorem hosted_talk {server : IpcServer} {reads : List ReadAnswer}
    {writes : List WriteAnswer} (hdistinct : server.Distinct)
    (haccepted : (token, Client.new { reads, writes }) ∈ server.clients)
    (hsteps : Hosted.Steps codec token ⟨server, start reads writes⟩ later) :
    Talk.Steps codec (start reads writes) later.talk ∧
      (token, later.talk.conn) ∈ later.server.clients := by
  have hboth : later.At token ∧ Talk.Steps codec (start reads writes) later.talk := by
    induction hsteps with
    | refl => exact ⟨⟨haccepted, hdistinct⟩, .refl⟩
    | tail _ hstep ih =>
        obtain ⟨hat, htalk⟩ := hstep.talk ih.1
        exact ⟨hat, ih.2.trans htalk⟩
  exact ⟨hboth.2, hboth.1.conn⟩

/-- A client says hello while the server has another connection, which says hello first. -/
theorem hosted_hello (path : PathBuf) : Hosted.Steps helloCodec 2
    ⟨servingTwo path (.new { reads := [.data helloLine], writes := [.wrote 118] })
      (.new { reads := [.data helloLine], writes := [.wrote 118] }),
      .start [.data helloLine] [.wrote 118]⟩
    ⟨servingTwo path answeredHello answeredHello, helloServed⟩ := by
  have hother := @Hosted.Step.server helloCodec 2 _ _ (.start [.data helloLine] [.wrote 118])
    (.new { reads := [.data helloLine], writes := [.wrote 118] }) []
    (turn_handleReady (@servingTwo_second helloCodec path answeredHello _ _
      (fun _ => ⟨daemonVersion, 1, 0, false, ""⟩) [] (serve_helloLine _ _)))
    List.mem_cons_self rfl (List.prefix_refl _)
  have hsend : Hosted.Step helloCodec 2
      ⟨servingTwo path (.new { reads := [.data helloLine], writes := [.wrote 118] })
        answeredHello, .start [.data helloLine] [.wrote 118]⟩
      ⟨servingTwo path (.new { reads := [.data helloLine], writes := [.wrote 118] })
        answeredHello, helloSent⟩ :=
    .client (.send (.hello 1 1) helloLine rfl encode_hello) rfl
  have hserve := @Hosted.Step.server helloCodec 2 _ _ helloSent answeredHello
    [.data helloLine] (turn_handleReady (@servingTwo_first helloCodec path answeredHello _
      answeredHello (fun _ => ⟨daemonVersion, 1, 0, false, ""⟩) [] (serve_helloLine _ _)))
    List.mem_cons_self rfl (by rw [gave_helloLine]; exact List.prefix_refl _)
  rw [gave_helloLine] at hserve
  exact ((Relation.ReflTransGen.single hother).tail hsend).tail hserve

theorem hosted_talk_hello :
    Talk.Steps helloCodec (.start [.data helloLine] [.wrote 118]) helloServed :=
  (hosted_talk (by rw [IpcServer.Distinct]; decide) List.mem_cons_self
    (hosted_hello (.ofString "/run/wiiland.sock"))).1

end Talk

end Daemon

end Wiiland
