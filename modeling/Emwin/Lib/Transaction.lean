/-
# Transactions

Statements are sent to a database one after another, and each may fail; the first error ends
the work.  A transaction that fails leaves the tables as they were, but not the sequences that
numbers are taken from.  The answer to a commit may be lost after it was carried out.

`transaction_cases` says what can become of a transaction, and `Succeeds` follows the
statements of one that succeeds.
-/
import Mathlib.Order.Basic

namespace Transaction

/-- How a statement is answered. -/
inductive Response (ε : Type) where
  | done
  | failed (e : ε)
  /-- Carried out, but the answer does not arrive. -/
  | unacknowledged (e : ε)
  deriving DecidableEq, Repr

/-- A database, after some number of statements. -/
structure Server (T S : Type) where
  tables : T
  sequences : S
  executed : ℕ

/-- Work on a database that may fail. -/
def Session (T S ε α : Type) := Server T S → Except ε α × Server T S

variable {T S ε α β : Type}

instance : Monad (Session T S ε) where
  pure a s := (.ok a, s)
  bind x f s :=
    match x s with
    | (.ok a, t) => f a t
    | (.error e, t) => (.error e, t)

/-- An error of the program. -/
def raise (e : ε) : Session T S ε α := fun s => (.error e, s)

variable (answers : ℕ → Response ε)

/-- A statement: what it returns, and what it makes of the tables and sequences. -/
def statement (run : T → S → α × T × S) : Session T S ε α := fun s =>
  let r := run s.tables s.sequences
  match answers s.executed with
  | .done => (.ok r.1, ⟨r.2.1, r.2.2, s.executed + 1⟩)
  | .failed e => (.error e, { s with executed := s.executed + 1 })
  | .unacknowledged e => (.error e, ⟨r.2.1, r.2.2, s.executed + 1⟩)

/-- A statement that changes the tables. -/
def update (f : T → T) : Session T S ε Unit := statement answers fun tables seqs => ((), f tables, seqs)

/-- A statement that reads the tables. -/
def query (f : T → α) : Session T S ε α := statement answers fun tables seqs => (f tables, tables, seqs)

/-- `BEGIN`, the work, and `COMMIT`; what was not committed is rolled back. -/
def transaction (body : Session T S ε α) : Session T S ε α := fun s =>
  match update answers id s with
  | (.error e, t) => (.error e, t)
  | (.ok (), t) =>
      match body t with
      | (.error e, u) => (.error e, { u with tables := s.tables })
      | (.ok a, u) =>
          match answers u.executed with
          | .done => (.ok a, { u with executed := u.executed + 1 })
          | .failed e => (.error e, { u with tables := s.tables, executed := u.executed + 1 })
          | .unacknowledged e => (.error e, { u with executed := u.executed + 1 })

/-- Whether a transaction is committed. -/
def commits (body : Session T S ε α) (s : Server T S) : Bool :=
  match update answers id s with
  | (.error _, _) => false
  | (.ok (), t) =>
      match body t with
      | (.error _, _) => false
      | (.ok _, u) =>
          match answers u.executed with
          | .done | .unacknowledged _ => true
          | .failed _ => false

variable {answers}

/-! ## Work in parts -/

theorem bind_of_ok {x : Session T S ε α} {f : α → Session T S ε β} {s t : Server T S} {a : α}
    (h : x s = (.ok a, t)) : (x >>= f) s = f a t := by
  show (match x s with
    | (.ok a, t) => f a t
    | (.error e, t) => (.error e, t)) = _
  rw [h]

theorem bind_of_error {x : Session T S ε α} {f : α → Session T S ε β} {s t : Server T S} {e : ε}
    (h : x s = (.error e, t)) : (x >>= f) s = (.error e, t) := by
  show (match x s with
    | (.ok a, t) => f a t
    | (.error e, t) => (.error e, t)) = _
  rw [h]

/-! ## Success -/

/-- The work succeeds from a database to another. -/
def Succeeds (x : Session T S ε α) (s : Server T S) (a : α) (t : Server T S) : Prop :=
  x s = (.ok a, t)

/-- Work in two parts succeeds if both do. -/
theorem succeeds_bind {x : Session T S ε α} {f : α → Session T S ε β} {s u : Server T S} {b : β} :
    Succeeds (x >>= f) s b u ↔ ∃ a t, Succeeds x s a t ∧ Succeeds (f a) t b u := by
  unfold Succeeds
  constructor
  · intro h
    match hx : x s with
    | (.ok a, t) =>
        rw [bind_of_ok hx] at h
        exact ⟨a, t, rfl, h⟩
    | (.error e, t) =>
        rw [bind_of_error hx] at h
        cases h
  · rintro ⟨a, t, hx, hf⟩
    rw [bind_of_ok hx]
    exact hf

theorem succeeds_pure {a b : α} {s t : Server T S} :
    Succeeds (pure a : Session T S ε α) s b t ↔ b = a ∧ t = s := by
  constructor
  · intro h
    cases h
    exact ⟨rfl, rfl⟩
  · rintro ⟨rfl, rfl⟩
    rfl

theorem not_succeeds_raise {e : ε} {s t : Server T S} {a : α} :
    ¬ Succeeds (raise e : Session T S ε α) s a t := by
  intro h
  cases h

/-- A statement that succeeds does what it says. -/
theorem Succeeds.statement {run : T → S → α × T × S} {s t : Server T S} {a : α}
    (h : Succeeds (statement answers run) s a t) :
    a = (run s.tables s.sequences).1 ∧ t.tables = (run s.tables s.sequences).2.1 ∧
      t.sequences = (run s.tables s.sequences).2.2 := by
  unfold Succeeds Transaction.statement at h
  dsimp only at h
  split at h
  · cases h
    exact ⟨rfl, rfl, rfl⟩
  · cases h
  · cases h

theorem Succeeds.update {f : T → T} {s t : Server T S} {a : Unit}
    (h : Succeeds (update answers f) s a t) :
    t.tables = f s.tables ∧ t.sequences = s.sequences := h.statement.2

theorem Succeeds.query {f : T → α} {s t : Server T S} {a : α}
    (h : Succeeds (query answers f) s a t) :
    a = f s.tables ∧ t.tables = s.tables ∧ t.sequences = s.sequences := h.statement

/-! ## Reading -/

/-- The work leaves the tables and sequences as they are, also where it fails. -/
def Reads (x : Session T S ε α) : Prop :=
  ∀ s, (x s).2.tables = s.tables ∧ (x s).2.sequences = s.sequences

theorem reads_pure (a : α) : Reads (pure a : Session T S ε α) := fun _ => ⟨rfl, rfl⟩

theorem Reads.bind {x : Session T S ε α} {f : α → Session T S ε β} (hx : Reads x)
    (hf : ∀ a, Reads (f a)) : Reads (x >>= f) := by
  intro s
  have hread := hx s
  match h : x s with
  | (.ok a, t) =>
      rw [h] at hread
      rw [bind_of_ok h]
      exact ⟨(hf a t).1.trans hread.1, (hf a t).2.trans hread.2⟩
  | (.error e, t) =>
      rw [h] at hread
      rw [bind_of_error h]
      exact hread

/-- Reading behind other work leaves what that has made. -/
theorem bind_reads (x : Session T S ε α) {f : α → Session T S ε β} (hf : ∀ a, Reads (f a))
    (s : Server T S) : ((x >>= f) s).2.tables = (x s).2.tables ∧
      ((x >>= f) s).2.sequences = (x s).2.sequences := by
  match h : x s with
  | (.ok a, t) =>
      rw [bind_of_ok h]
      exact hf a t
  | (.error e, t) =>
      rw [bind_of_error h]
      exact ⟨rfl, rfl⟩

variable (answers) in
/-- A query only reads. -/
theorem reads_query (f : T → α) : Reads (S := S) (query answers f) := by
  intro s
  unfold query statement
  dsimp only
  split
  · exact ⟨rfl, rfl⟩
  · exact ⟨rfl, rfl⟩
  · exact ⟨rfl, rfl⟩

/-! ## Sequences -/

section Sequences

variable [Preorder S]

/-- The work never sets a sequence back. -/
def Advances (x : Session T S ε α) : Prop := ∀ s, s.sequences ≤ (x s).2.sequences

theorem advances_pure (a : α) : Advances (pure a : Session T S ε α) := fun _ => le_rfl

theorem advances_raise (e : ε) : Advances (raise e : Session T S ε α) := fun _ => le_rfl

theorem Advances.bind {x : Session T S ε α} {f : α → Session T S ε β} (hx : Advances x)
    (hf : ∀ a, Advances (f a)) : Advances (x >>= f) := by
  intro s
  have hle := hx s
  match h : x s with
  | (.ok a, t) =>
      rw [h] at hle
      rw [bind_of_ok h]
      exact hle.trans (hf a t)
  | (.error e, t) =>
      rw [h] at hle
      rw [bind_of_error h]
      exact hle

theorem advances_statement {run : T → S → α × T × S}
    (h : ∀ tables seqs, seqs ≤ (run tables seqs).2.2) : Advances (statement answers run) := by
  intro s
  unfold statement
  dsimp only
  split
  · exact h _ _
  · exact le_rfl
  · exact h _ _

theorem advances_update (f : T → T) : Advances (S := S) (update answers f) :=
  advances_statement fun _ _ => le_rfl

theorem advances_query (f : T → α) : Advances (S := S) (query answers f) :=
  advances_statement fun _ _ => le_rfl

theorem Advances.transaction {body : Session T S ε α} (h : Advances body) :
    Advances (transaction answers body) := by
  intro s
  have hbegin : s.sequences ≤ (update answers (id : T → T) s).2.sequences := advances_update id s
  unfold Transaction.transaction
  match hupdate : Transaction.update answers id s with
  | (.error e, t) =>
      rw [hupdate] at hbegin
      exact hbegin
  | (.ok (), t) =>
      rw [hupdate] at hbegin
      have hbody := hbegin.trans (h t)
      dsimp only
      match hresult : body t with
      | (.error e, u) =>
          rw [hresult] at hbody
          exact hbody
      | (.ok a, u) =>
          rw [hresult] at hbody
          dsimp only
          split
          · exact hbody
          · exact hbody
          · exact hbody

end Sequences

/-! ## What becomes of a transaction -/

/-- A transaction is committed with all that its body has done, whether its answer arrives or
not, or it fails and leaves the tables as they were. -/
theorem transaction_cases (body : Session T S ε α) (s : Server T S) :
    (commits answers body s = true ∧ ∃ t a u, t.tables = s.tables ∧ t.sequences = s.sequences ∧
      Succeeds body t a u ∧ (transaction answers body s).2.tables = u.tables ∧
      (transaction answers body s).2.sequences = u.sequences ∧
      ∀ b, (transaction answers body s).1 = .ok b → b = a) ∨
    (commits answers body s = false ∧ (transaction answers body s).2.tables = s.tables ∧
      ∃ e, (transaction answers body s).1 = .error e) := by
  unfold transaction commits
  match hupdate : update answers id s with
  | (.error e, t) =>
      refine .inr ⟨rfl, ?_, e, rfl⟩
      have htables : (update answers id s).2.tables = s.tables := by
        unfold update statement
        dsimp only
        split <;> rfl
      rw [hupdate] at htables
      exact htables
  | (.ok (), t) =>
      obtain ⟨htables, hseqs⟩ := Succeeds.update (a := ()) hupdate
      dsimp only
      match hresult : body t with
      | (.error e, u) => exact .inr ⟨rfl, rfl, e, rfl⟩
      | (.ok a, u) =>
          dsimp only
          cases answers u.executed with
          | done =>
              exact .inl ⟨rfl, t, a, u, htables, hseqs, hresult, rfl, rfl,
                fun b hb => (Except.ok.inj hb).symm⟩
          | failed e => exact .inr ⟨rfl, rfl, e, rfl⟩
          | unacknowledged e =>
              exact .inl ⟨rfl, t, a, u, htables, hseqs, hresult, rfl, rfl, fun b hb => by cases hb⟩

end Transaction
