import StoreCpp.ConnectionUri
import StoreCpp.ResourcePool

/-!
# The connection of a large object handler

`LargeObjectHandler` runs every operation on a connection of its own.  It
borrows a connection of the pool only to copy its settings into a URI, without
escapes, and hands that URI to `PQconnectdb`.
-/

namespace StoreCpp

open ConnectionUri ResourcePool

namespace LargeObject

/-- What `PQuser`, `PQpass`, `PQhost`, `PQport` and `PQdb` answer. -/
abbrev PGconn := Settings

/-- The text that is streamed into `ss`. -/
def connInfo (pgConn : PGconn) : List Char :=
  "postgresql://".toList ++ pgConn.user ++ [':'] ++ pgConn.password ++ ['@'] ++
    pgConn.host ++ [':'] ++ pgConn.port ++ ['/'] ++ pgConn.dbname

section Pooled

variable {σ κ ε : Type*}

def getConnInfo (pool : Pool σ κ ε) (getPGconn : κ → PGconn)
    (state : Traced σ κ) : Option (List Char × Traced σ κ) :=
  pool.borrowing [] (fun conn => some (connInfo (getPGconn conn), none))
    (fun _ ss => ss) state

theorem connInfo_eq (pgConn : PGconn) :
    connInfo pgConn =
      scheme ++ (pgConn.user ++ ':' :: (pgConn.password ++ '@' ::
        (pgConn.host ++ ':' :: (pgConn.port ++ '/' :: pgConn.dbname)))) := by
  unfold connInfo scheme
  simp only [List.append_assoc, List.cons_append, List.nil_append]

theorem read_connInfo_iff (pgConn : PGconn) :
    read (connInfo pgConn) = some ⟨pgConn, none⟩ ↔ pgConn.Plain := by
  rw [connInfo_eq]
  exact read_iff_plain pgConn

/-- The handler connects to where the pool's connection goes exactly if no
setting has a delimiter of its part of the URI; a socket directory, an IPv6
address and a password with an at sign have one.  A pool with no connection
left gives the empty text, with which `PQconnectdb` takes its defaults. -/
theorem getConnInfo_reads [DecidableEq κ] (pool : Pool σ κ ε)
    (getPGconn : κ → PGconn) (state : Traced σ κ) :
    ∃ text final, getConnInfo pool getPGconn state = some (text, final) ∧
      pool.Returned state final ∧
      (pool.available state.pool = 0 ∧ text = [] ∨
        ∃ conn next, pool.borrow state.pool = .ok (conn, next) ∧
          (read text = some ⟨getPGconn conn, none⟩ ↔
            (getPGconn conn).Plain)) := by
  cases htake : pool.take state with
  | error thrown =>
      have hrun : getConnInfo pool getPGconn state = some ([], state) := by
        unfold getConnInfo Pool.borrowing
        rw [htake]
      have hnone : pool.available state.pool = 0 := by
        by_contra hsome
        obtain ⟨conn, next, hborrow⟩ :=
          pool.borrow_of_available (Nat.pos_of_ne_zero hsome)
        unfold Pool.take at htake
        rw [hborrow] at htake
        cases htake
      exact ⟨[], state, hrun, Pool.returned_of_borrowing hrun,
        Or.inl ⟨hnone, rfl⟩⟩
  | ok taken =>
      obtain ⟨conn, held⟩ := taken
      have hrun : getConnInfo pool getPGconn state =
          some (connInfo (getPGconn conn), pool.give conn held) := by
        unfold getConnInfo Pool.borrowing
        rw [htake]
        rfl
      obtain ⟨next, hborrow, -⟩ := Pool.take_eq_ok htake
      exact ⟨connInfo (getPGconn conn), pool.give conn held, hrun,
        Pool.returned_of_borrowing hrun,
        Or.inr ⟨conn, next, hborrow, read_connInfo_iff (getPGconn conn)⟩⟩

end Pooled

end LargeObject

end StoreCpp
