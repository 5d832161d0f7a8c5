import XrceDds.Lib.Transition
import XrceDds.Transport.TcpReceive
import Mathlib.Data.Finset.Basic

/-!
# The connections of a TCP agent

`TCPv4Agent` keeps its connections in an array, with a list of the numbers that are free, a set of
those that are active, and a map from endpoints to connections, in which `send_message` looks up
where a packet goes.

The map is set when a connection is opened and its entry erased when one is closed, by the
endpoint alone.  A peer may open a connection from the endpoint of one that is not closed yet;
then closing one of them leaves the other one unreachable.  `connections_consistent` says that
nothing else goes wrong.
-/

namespace XrceDds

/-- `IPv4EndPoint`. -/
structure IPv4EndPoint where
  addr : UInt32
  port : UInt16
  deriving DecidableEq

/-- `TCPv4ConnectionLinux`, with the file descriptor of its `pollfd` and what `init_input_buffer`
sets. -/
structure TcpConnection where
  fd : ℤ
  endpoint : IPv4EndPoint
  id : ℕ
  active : Bool
  bufferState : TcpInputBufferState
  msgSize : ℕ

/-- The tables of `TCPv4Agent`. -/
structure TcpTables where
  connections : ℕ → TcpConnection
  activeConnections : Finset ℕ
  freeConnections : List ℕ
  endpointToConnectionMap : IPv4EndPoint → Option ℕ

namespace TcpTables

/-- The tables behind `init`, for `TCP_MAX_CONNECTIONS` connections.  The endpoints are what they
are. -/
def init (tcpMaxConnections : ℕ) (endpoints : ℕ → IPv4EndPoint) : TcpTables where
  connections id := ⟨-1, endpoints id, id, false, .bufferEmpty, 0⟩
  activeConnections := ∅
  freeConnections := List.range tcpMaxConnections
  endpointToConnectionMap _ := none

/-- `open_connection`. -/
def openConnection (tables : TcpTables) (fd : ℤ) (endpoint : IPv4EndPoint) : TcpTables × Bool :=
  match tables.freeConnections with
  | id :: free =>
    let connection : TcpConnection :=
      ⟨fd, endpoint, (tables.connections id).id, true, .bufferEmpty, 0⟩
    ({ connections := Function.update tables.connections id connection
       activeConnections := insert id tables.activeConnections
       freeConnections := free
       endpointToConnectionMap :=
        Function.update tables.endpointToConnectionMap endpoint (some connection.id) }, true)
  | [] => (tables, false)

/-- `close_connection` of the connection at `index`, where `closed` says whether the call of `close`
is successful. -/
def closeConnection (tables : TcpTables) (index : ℕ) (closed : Bool) : TcpTables × Bool :=
  let connection := tables.connections index
  if connection.id ∈ tables.activeConnections ∧ closed then
    ({ connections :=
        Function.update tables.connections index { connection with fd := -1, active := false }
       activeConnections := tables.activeConnections.erase connection.id
       freeConnections := tables.freeConnections ++ [connection.id]
       endpointToConnectionMap :=
        Function.update tables.endpointToConnectionMap connection.endpoint none }, true)
  else (tables, false)

/-- The connection that `send_message` finds for the destination of a packet. -/
def lookup (tables : TcpTables) (destination : IPv4EndPoint) : Option ℕ :=
  tables.endpointToConnectionMap destination

/-! ## Runs -/

/-- A peer opens a connection, or one is closed. -/
inductive Event where
  | connect (fd : ℤ) (endpoint : IPv4EndPoint)
  | close (index : ℕ) (closed : Bool)

/-- What an event does. -/
def step (tables : TcpTables) : Event → TcpTables
  | .connect fd endpoint => (tables.openConnection fd endpoint).1
  | .close index closed => (tables.closeConnection index closed).1

/-- The numbers are free or active, the map finds for the endpoint of every active connection an
active one that has it, and nothing else is in the map. -/
structure Consistent (tcpMaxConnections : ℕ) (tables : TcpTables) : Prop where
  id_eq : ∀ id, (tables.connections id).id = id
  free_nodup : tables.freeConnections.Nodup
  disjoint : ∀ id ∈ tables.freeConnections, id ∉ tables.activeConnections
  cover : ∀ id, id < tcpMaxConnections ↔ id ∈ tables.freeConnections ∨ id ∈ tables.activeConnections
  active_iff : ∀ id, (tables.connections id).active = true ↔ id ∈ tables.activeConnections
  found : ∀ id ∈ tables.activeConnections, ∃ other ∈ tables.activeConnections,
    tables.lookup (tables.connections id).endpoint = some other ∧
      (tables.connections other).endpoint = (tables.connections id).endpoint
  nothing_else : ∀ endpoint id, tables.lookup endpoint = some id →
    id ∈ tables.activeConnections ∧ (tables.connections id).endpoint = endpoint

/-- Active connections that were reachable, and are active after an event, are reachable. -/
def KeepsReachable (tables tables' : TcpTables) : Prop :=
  ∀ id ∈ tables.activeConnections, id ∈ tables'.activeConnections →
    tables.lookup (tables.connections id).endpoint ≠ none →
    tables'.lookup (tables.connections id).endpoint ≠ none

/-- No connection is closed while another active one has its endpoint. -/
def Fits (tables : TcpTables) : Event → Prop
  | .connect _ _ => True
  | .close index closed => index ∈ tables.activeConnections → closed = true →
    ∀ id ∈ tables.activeConnections, id ≠ index →
      (tables.connections id).endpoint ≠ (tables.connections index).endpoint

variable {n : ℕ} {tables : TcpTables}

/-- The tables behind `init`. -/
lemma consistent_init (endpoints : ℕ → IPv4EndPoint) : Consistent n (init n endpoints) where
  id_eq _ := rfl
  free_nodup := List.nodup_range
  disjoint _ _ := Finset.notMem_empty _
  cover id := by simp [init]
  active_iff _ := by simp [init]
  found _ h := absurd h (Finset.notMem_empty _)
  nothing_else _ _ h := by cases h

namespace Consistent

/-- Opening a connection keeps the tables consistent, whatever its endpoint is. -/
lemma openConnection (h : Consistent n tables) (fd : ℤ) (endpoint : IPv4EndPoint) :
    Consistent n (tables.openConnection fd endpoint).1 := by
  unfold TcpTables.openConnection
  cases hfree : tables.freeConnections with
  | nil => exact h
  | cons id free =>
    have hnot : id ∉ tables.activeConnections := h.disjoint id (hfree ▸ .head _)
    have hnodup := h.free_nodup
    rw [hfree, List.nodup_cons] at hnodup
    have hother : ∀ other ∈ tables.activeConnections, other ≠ id := fun other hmem heq =>
      hnot (heq ▸ hmem)
    constructor
    case id_eq =>
      intro other
      dsimp only
      rw [Function.update_apply]
      split
      · next heq => rw [heq, h.id_eq]
      · exact h.id_eq other
    case free_nodup => exact hnodup.2
    case disjoint =>
      intro other hmem hactive
      rcases Finset.mem_insert.mp hactive with rfl | hactive
      · exact hnodup.1 hmem
      · exact h.disjoint other (hfree ▸ .tail _ hmem) hactive
    case cover =>
      intro other
      rw [h.cover other, hfree, List.mem_cons, Finset.mem_insert]
      tauto
    case active_iff =>
      intro other
      dsimp only
      rw [Function.update_apply, Finset.mem_insert]
      split
      · next heq => simp [heq]
      · next hne => rw [h.active_iff other, or_iff_right hne]
    case found =>
      intro other hmem
      unfold lookup
      dsimp only
      rw [h.id_eq id]
      by_cases hsame : (Function.update tables.connections id
          ⟨fd, endpoint, id, true, .bufferEmpty, 0⟩ other).endpoint = endpoint
      · refine ⟨id, Finset.mem_insert_self _ _, ?_, ?_⟩
        · rw [hsame, Function.update_self]
        · rw [hsame, Function.update_self]
      · have hne : other ≠ id := by
          rintro rfl
          rw [Function.update_self] at hsame
          exact hsame rfl
        rw [Function.update_of_ne hne] at hsame ⊢
        obtain ⟨found, hfound, hlookup, hendpoint⟩ :=
          h.found other ((Finset.mem_insert.mp hmem).resolve_left hne)
        refine ⟨found, Finset.mem_insert_of_mem hfound, ?_, ?_⟩
        · rw [Function.update_of_ne hsame]
          exact hlookup
        · rw [Function.update_of_ne (hother found hfound)]
          exact hendpoint
    case nothing_else =>
      intro endpoint' other hlookup
      unfold lookup at hlookup
      dsimp only at hlookup ⊢
      rw [h.id_eq id] at *
      rw [Function.update_apply] at hlookup
      split at hlookup
      · next heq =>
        obtain rfl := Option.some.inj hlookup
        refine ⟨Finset.mem_insert_self _ _, ?_⟩
        rw [Function.update_self, heq]
      · obtain ⟨hactive, hendpoint⟩ := h.nothing_else endpoint' other hlookup
        refine ⟨Finset.mem_insert_of_mem hactive, ?_⟩
        rw [Function.update_of_ne (hother other hactive)]
        exact hendpoint

/-- Opening a connection takes nothing away. -/
lemma openConnection_keeps (tables : TcpTables) (fd : ℤ) (endpoint : IPv4EndPoint) :
    KeepsReachable tables (tables.openConnection fd endpoint).1 := by
  intro id hactive _ hreachable
  unfold TcpTables.openConnection
  cases tables.freeConnections with
  | nil => exact hreachable
  | cons free rest =>
    unfold lookup
    dsimp only
    rw [Function.update_apply]
    split
    · exact Option.some_ne_none _
    · exact hreachable

/-- The tables when a connection is closed. -/
lemma closeConnection_of_mem (h : Consistent n tables) {index : ℕ}
    (hactive : index ∈ tables.activeConnections) :
    (tables.closeConnection index true).1 =
      { connections := Function.update tables.connections index
          { tables.connections index with fd := -1, active := false }
        activeConnections := tables.activeConnections.erase index
        freeConnections := tables.freeConnections ++ [index]
        endpointToConnectionMap := Function.update tables.endpointToConnectionMap
          (tables.connections index).endpoint none } := by
  unfold TcpTables.closeConnection
  dsimp only
  rw [h.id_eq index, if_pos ⟨hactive, rfl⟩]

/-- Closing a connection changes no endpoint. -/
lemma closeConnection_endpoint (tables : TcpTables) (index id : ℕ) :
    (Function.update tables.connections index
      { tables.connections index with fd := -1, active := false } id).endpoint =
      (tables.connections id).endpoint := by
  rw [Function.update_apply]
  split
  · next heq => rw [heq]
  · rfl

/-- Closing a connection of which no other active one has the endpoint keeps the tables consistent,
and all others reachable. -/
lemma closeConnection (h : Consistent n tables) {index : ℕ}
    (hactive : index ∈ tables.activeConnections)
    (halone : ∀ id ∈ tables.activeConnections, id ≠ index →
      (tables.connections id).endpoint ≠ (tables.connections index).endpoint) :
    Consistent n (tables.closeConnection index true).1 ∧
      KeepsReachable tables (tables.closeConnection index true).1 := by
  have hendpoint := closeConnection_endpoint tables index
  rw [h.closeConnection_of_mem hactive]
  refine ⟨?_, fun id hmem hmem' hreachable => ?_⟩
  · constructor
    case id_eq =>
      intro id
      dsimp only
      rw [Function.update_apply]
      split
      · next heq => rw [h.id_eq, heq]
      · exact h.id_eq id
    case free_nodup =>
      refine List.nodup_append.mpr ⟨h.free_nodup, List.nodup_singleton _, ?_⟩
      rintro id hid _ (_ | ⟨_, ⟨⟩⟩) rfl
      exact h.disjoint id hid hactive
    case disjoint =>
      intro id hid hmem
      obtain ⟨hne, hmem⟩ := Finset.mem_erase.mp hmem
      rcases List.mem_append.mp hid with hid | hid
      · exact h.disjoint id hid hmem
      · exact hne (List.mem_singleton.mp hid)
    case cover =>
      intro id
      rw [h.cover id, List.mem_append, List.mem_singleton, Finset.mem_erase]
      by_cases heq : id = index
      · simp [heq, hactive]
      · simp [heq]
    case active_iff =>
      intro id
      dsimp only
      rw [Function.update_apply, Finset.mem_erase]
      split
      · next heq => simp [heq]
      · next hne => rw [h.active_iff id, and_iff_right hne]
    case found =>
      intro id hmem
      obtain ⟨hne, hmem⟩ := Finset.mem_erase.mp hmem
      obtain ⟨found, hfound, hlookup, hsame⟩ := h.found id hmem
      have hfoundne : found ≠ index := fun heq => halone id hmem hne (heq ▸ hsame.symm)
      unfold lookup
      dsimp only
      rw [hendpoint]
      refine ⟨found, Finset.mem_erase.mpr ⟨hfoundne, hfound⟩, ?_, ?_⟩
      · rw [Function.update_of_ne (halone id hmem hne)]
        exact hlookup
      · rw [hendpoint]
        exact hsame
    case nothing_else =>
      intro endpoint id hlookup
      unfold lookup at hlookup
      dsimp only at hlookup ⊢
      rw [Function.update_apply] at hlookup
      split at hlookup
      · cases hlookup
      · next hne =>
        obtain ⟨hmem, hsame⟩ := h.nothing_else endpoint id hlookup
        refine ⟨Finset.mem_erase.mpr ⟨?_, hmem⟩, (hendpoint id).trans hsame⟩
        rintro rfl
        exact hne hsame.symm
  · unfold lookup
    dsimp only
    rw [Function.update_of_ne (halone id hmem (Finset.mem_erase.mp hmem').1)]
    exact hreachable

/-- When a connection is closed of which another active one has the endpoint, that one is not found
any more. -/
lemma not_closeConnection (h : Consistent n tables) {index id : ℕ}
    (hactive : index ∈ tables.activeConnections) (hmem : id ∈ tables.activeConnections)
    (hne : id ≠ index)
    (hsame : (tables.connections id).endpoint = (tables.connections index).endpoint) :
    ¬ Consistent n (tables.closeConnection index true).1 := by
  intro hafter
  rw [h.closeConnection_of_mem hactive] at hafter
  obtain ⟨found, -, hlookup, -⟩ := hafter.found id (Finset.mem_erase.mpr ⟨hne, hmem⟩)
  unfold lookup at hlookup
  dsimp only at hlookup
  rw [closeConnection_endpoint tables index, hsame, Function.update_self] at hlookup
  cases hlookup

/-- An event keeps the tables consistent, and other connections reachable, exactly when it fits. -/
lemma step_iff (h : Consistent n tables) (e : Event) :
    Consistent n (tables.step e) ∧ KeepsReachable tables (tables.step e) ↔ tables.Fits e := by
  cases e with
  | connect fd endpoint =>
    exact iff_of_true ⟨h.openConnection fd endpoint, openConnection_keeps tables fd endpoint⟩
      trivial
  | close index closed =>
    by_cases hcloses : index ∈ tables.activeConnections ∧ closed = true
    · obtain ⟨hactive, rfl⟩ := hcloses
      constructor
      · intro hafter _ _ id hmem hne hsame
        exact h.not_closeConnection hactive hmem hne hsame hafter.1
      · exact fun hfits => h.closeConnection hactive (hfits hactive rfl)
    · have hsame : tables.step (.close index closed) = tables := by
        unfold step TcpTables.closeConnection
        dsimp only
        rw [h.id_eq index, if_neg hcloses]
      rw [hsame]
      exact iff_of_true ⟨h, fun _ _ _ => id⟩ fun hactive hclosed =>
        absurd ⟨hactive, hclosed⟩ hcloses

end Consistent

/-- As long as no connection is closed while another active one has its endpoint, the tables are
consistent; and of the next event the condition is exact. -/
theorem connections_consistent (endpoints : ℕ → IPv4EndPoint)
    (h : Transition.Reaches (· = init n endpoints) step Fits tables) :
    Consistent n tables ∧ ∀ e, Consistent n (tables.step e) ∧
      KeepsReachable tables (tables.step e) ↔ tables.Fits e := by
  have hconsistent : Consistent n tables := Transition.Reaches.invariant
    (fun _ hinit => hinit ▸ consistent_init endpoints)
    (fun _ e hbefore hfits => ((hbefore.step_iff e).mpr hfits).1) h
  exact ⟨hconsistent, hconsistent.step_iff⟩

/-- The tables of two connections, before any is opened. -/
def twoConnections : TcpTables := init 2 fun _ => ⟨0, 0⟩

/-- A peer connects, is closed, and connects again from where it was. -/
def reconnected : TcpTables :=
  [.connect 5 ⟨1, 80⟩, .close 0 true, .connect 6 ⟨1, 80⟩].foldl step twoConnections

/-- These are consistent. -/
theorem connections_consistent_reconnected :
    Consistent 2 reconnected ∧ ∀ e, Consistent 2 (reconnected.step e) ∧
      KeepsReachable reconnected (reconnected.step e) ↔ reconnected.Fits e := by
  have hstart : Transition.Reaches (· = twoConnections) step Fits twoConnections := .start rfl
  refine connections_consistent (fun _ => ⟨0, 0⟩) (hstart.foldl _ ?_)
  refine ⟨trivial, fun _ _ id hid hne => ?_, trivial, trivial⟩
  have honly : (twoConnections.step (.connect 5 ⟨1, 80⟩)).activeConnections = {0} := rfl
  rw [honly, Finset.mem_singleton] at hid
  exact absurd hid hne

/-- A peer connects a second time from the same endpoint, and its first connection is closed: the
second one is active and cannot be found. -/
theorem connections_consistent_fails :
    ¬ ∀ events : List Event, Consistent 2 (events.foldl step twoConnections) := by
  intro h
  obtain ⟨other, -, hlookup, -⟩ :=
    (h [.connect 5 ⟨1, 80⟩, .connect 6 ⟨1, 80⟩, .close 0 true]).found 1 (by decide)
  have hnone : ([.connect 5 ⟨1, 80⟩, .connect 6 ⟨1, 80⟩, .close 0 true].foldl step
      twoConnections).lookup ⟨1, 80⟩ = none := by decide
  rw [show (([.connect 5 ⟨1, 80⟩, .connect 6 ⟨1, 80⟩, .close 0 true].foldl step
    twoConnections).connections 1).endpoint = ⟨1, 80⟩ by decide, hnone] at hlookup
  cases hlookup

end TcpTables

end XrceDds
