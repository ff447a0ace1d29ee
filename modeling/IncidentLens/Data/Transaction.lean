import Mathlib.Data.Nat.Notation

/-!
# Transactions

A script is a program of statements on a database; what it does next depends on what the database then is. Within a
transaction the statements work on a copy, which `COMMIT` puts in place and `ROLLBACK` drops. Every statement may also
fail for a reason of its own, `COMMIT` included.
-/
namespace IncidentLens.Data

/-- What a program has executed: statements and an end. -/
inductive Script (σ ε : Type)
  | done
  | raise (e : ε)
  | statement (execute : σ → Except ε σ) (next : σ → Script σ ε)

/-- A connection within a transaction or outside of one, and how many statements it has executed. -/
structure Session (σ : Type) where
  committed : σ
  working : Option σ := none
  executed : ℕ := 0

section
variable {σ ε : Type}

/-- The database after a script whose statements do not fail by themselves. -/
def Script.result : Script σ ε → σ → Except ε σ
  | .done, db => .ok db
  | .raise e, _ => .error e
  | .statement execute next, db => match execute db with
    | .error e => .error e
    | .ok db => (next db).result db

def Script.seq : Script σ ε → Script σ ε → Script σ ε
  | .done, after => after
  | .raise e, _ => .raise e
  | .statement execute next, after => .statement execute fun db => (next db).seq after

lemma Script.result_seq (script after : Script σ ε) (db : σ) :
    (script.seq after).result db = (script.result db).bind after.result := by
  induction script generalizing db with
  | done => rfl
  | raise e => rfl
  | statement execute next ih =>
    rw [Script.seq, Script.result, Script.result]
    cases execute db with
    | error e => rfl
    | ok db' => exact ih db' db'

variable (fault : ℕ → Option ε)

/-- A statement within a transaction. -/
def Session.execute (s : Session σ) (execute : σ → Except ε σ) : Session σ × Except ε σ :=
  let counted := { s with executed := s.executed + 1 }
  match fault s.executed with
  | some e => (counted, .error e)
  | none => match execute (s.working.getD s.committed) with
    | .error e => (counted, .error e)
    | .ok db => ({ counted with working := some db }, .ok db)

def Script.run : Script σ ε → Session σ → Session σ × Except ε Unit
  | .done, s => (s, .ok ())
  | .raise e, s => (s, .error e)
  | .statement execute next, s => match (s.execute fault execute).2 with
    | .error e => ((s.execute fault execute).1, .error e)
    | .ok db => (next db).run (s.execute fault execute).1

def Session.rollback (s : Session σ) : Session σ := { s with working := none }

def Session.commit (s : Session σ) : Session σ := { s with committed := s.working.getD s.committed, working := none }

/-- `BEGIN`, the script and `COMMIT`; `ROLLBACK` where the script or `COMMIT` fails. -/
def transaction (body : Script σ ε) (db : σ) : Session σ × Except ε Unit :=
  match fault 0 with
  | some e => (⟨db, none, 1⟩, .error e)
  | none =>
    let after := body.run fault ⟨db, some db, 1⟩
    match after.2 with
    | .error e => (after.1.rollback, .error e)
    | .ok () => match fault after.1.executed with
      | some e => (after.1.rollback, .error e)
      | none => (after.1.commit, .ok ())

variable {fault}

lemma Script.run_spec (script : Script σ ε) {s : Session σ} {db : σ} (h : s.working = some db) :
    (script.run fault s).1.committed = s.committed ∧
      ((script.run fault s).2 = .ok () → ∃ db', (script.run fault s).1.working = some db' ∧ script.result db = .ok db') := by
  induction script generalizing s db with
  | done => exact ⟨rfl, fun _ => ⟨db, h, rfl⟩⟩
  | raise e => exact ⟨rfl, fun hok => nomatch hok⟩
  | statement execute next ih =>
    rw [Script.run, Script.result, Session.execute, h, Option.getD_some]
    cases hfault : fault s.executed with
    | some e => exact ⟨rfl, fun hok => nomatch hok⟩
    | none =>
      cases hexecute : execute db with
      | error e => exact ⟨rfl, fun hok => nomatch hok⟩
      | ok db' => exact ih db' rfl

lemma Script.run_faultless (hfault : ∀ n, fault n = none) (script : Script σ ε) {s : Session σ} {db : σ}
    (h : s.working = some db) : (script.run fault s).2 = (script.result db).map fun _ => () := by
  induction script generalizing s db with
  | done => rfl
  | raise e => rfl
  | statement execute next ih =>
    rw [Script.run, Script.result, Session.execute, h, Option.getD_some, hfault]
    cases execute db with
    | error e => rfl
    | ok db' => exact ih db' rfl

lemma transaction_atomic (body : Script σ ε) (db : σ) : (transaction fault body db).1.working = none ∧
      ((transaction fault body db).2 = .ok () ∧ body.result db = .ok (transaction fault body db).1.committed ∨
        (∃ e, (transaction fault body db).2 = .error e) ∧ (transaction fault body db).1.committed = db) := by
  rw [transaction]
  cases hbegin : fault 0 with
  | some e => exact ⟨rfl, .inr ⟨⟨e, rfl⟩, rfl⟩⟩
  | none =>
    obtain ⟨hcommitted, hok⟩ := @Script.run_spec σ ε fault body ⟨db, some db, 1⟩ db rfl
    dsimp only
    cases hrun : (body.run fault ⟨db, some db, 1⟩).2 with
    | error e => exact ⟨rfl, .inr ⟨⟨e, rfl⟩, hcommitted⟩⟩
    | ok _ =>
      obtain ⟨db', hworking, hresult⟩ := hok hrun
      dsimp only
      cases hcommit : fault (body.run fault ⟨db, some db, 1⟩).1.executed with
      | some e => exact ⟨rfl, .inr ⟨⟨e, rfl⟩, hcommitted⟩⟩
      | none =>
        refine ⟨rfl, .inl ⟨rfl, ?_⟩⟩
        rw [hresult, Session.commit, hworking]
        rfl

lemma transaction_faultless (hfault : ∀ n, fault n = none) (body : Script σ ε) (db : σ) :
    (transaction fault body db).2 = (body.result db).map fun _ => () := by
  have hrun := @Script.run_faultless σ ε fault hfault body ⟨db, some db, 1⟩ db rfl
  rw [transaction, hfault]
  dsimp only
  rw [hrun]
  cases body.result db with
  | error e => rfl
  | ok db' =>
    simp only [Except.map, hfault]

end
end IncidentLens.Data
