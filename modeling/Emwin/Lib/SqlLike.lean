/-
# LIKE

`text LIKE pattern`: `%` stands for any text, `_` for any character, a backslash makes the
next character stand for itself, and every other character does so anyway.  A pattern that ends
in the middle of an escape fits nothing.

Every other pattern has a shortest text (`like_shortest`), in which `%` is nothing and `_` is a
letter.
-/
import Emwin.Lib.Ascii

namespace Sql

/-- The characters with a meaning of their own. -/
def isMeta (c : Char) : Bool := c = '%' || c = '_' || c = '\\'

/-- `text LIKE pattern`. -/
inductive Like : Str → Str → Prop
  | nil : Like [] []
  | any (taken : Str) {p t : Str} : Like p t → Like ('%' :: p) (taken ++ t)
  | one (c : Char) {p t : Str} : Like p t → Like ('_' :: p) (c :: t)
  | escaped (c : Char) {p t : Str} : Like p t → Like ('\\' :: c :: p) (c :: t)
  | char {c : Char} {p t : Str} : isMeta c = false → Like p t → Like (c :: p) (c :: t)

/-- `text ILIKE pattern`, as far as ASCII goes. -/
def ILike (pattern text : Str) : Prop :=
  Like (Str.toAsciiLowercase pattern) (Str.toAsciiLowercase text)

/-- A pattern ends in the middle of an escape. -/
def openEscape : Str → Bool
  | [] => false
  | '\\' :: [] => true
  | '\\' :: _ :: p => openEscape p
  | _ :: p => openEscape p

/-- A shortest text for a pattern. -/
def shortest : Str → Str
  | [] => []
  | '\\' :: [] => []
  | '\\' :: c :: p => c :: shortest p
  | '%' :: p => shortest p
  | '_' :: p => 'a' :: shortest p
  | c :: p => c :: shortest p

variable {p t : Str}

/-! ## Patterns -/

theorem meta_cases (c : Char) : c = '%' ∨ c = '_' ∨ c = '\\' ∨ isMeta c = false := by
  rw [← Bool.not_eq_true, isMeta]
  simp only [Bool.or_eq_true, decide_eq_true_eq]
  tauto

/-- Induction over the pieces of a pattern. -/
theorem pattern_induction {motive : Str → Prop} (nil : motive []) (opened : motive ['\\'])
    (escaped : ∀ c p, motive p → motive ('\\' :: c :: p)) (any : ∀ p, motive p → motive ('%' :: p))
    (one : ∀ p, motive p → motive ('_' :: p))
    (char : ∀ c p, isMeta c = false → motive p → motive (c :: p)) (p : Str) : motive p := by
  induction p using openEscape.induct with
  | case1 => exact nil
  | case2 => exact opened
  | case3 c p ih => exact escaped c p ih
  | case4 c p h1 h2 ih =>
      rcases meta_cases c with rfl | rfl | rfl | hc
      · exact any p ih
      · exact one p ih
      · cases p with
        | nil => exact opened
        | cons d p => exact absurd rfl (h2 d p rfl)
      · exact char c p hc ih

theorem openEscape_cons {c : Char} (h : c ≠ '\\') (p : Str) :
    openEscape (c :: p) = openEscape p := by
  rw [openEscape]
  · rintro rfl
    exact absurd rfl h
  · rintro _ _ rfl
    exact absurd rfl h

theorem ne_of_isMeta {c d : Char} (hc : isMeta c = false) (hd : isMeta d = true) : c ≠ d := by
  rintro rfl
  rw [hc] at hd
  cases hd

theorem shortest_cons {c : Char} (h : isMeta c = false) (p : Str) :
    shortest (c :: p) = c :: shortest p := by
  rw [shortest]
  · exact fun hc _ => ne_of_isMeta h rfl hc
  · exact fun _ _ hc _ => ne_of_isMeta h rfl hc
  · exact ne_of_isMeta h rfl
  · exact ne_of_isMeta h rfl

/-- Escapes stay under another spelling of the other characters. -/
theorem openEscape_map {f : Char → Char} (hf : ∀ c, f c = '\\' ↔ c = '\\') (p : Str) :
    openEscape (p.map f) = openEscape p := by
  have hslash : f '\\' = '\\' := (hf _).mpr rfl
  have hcons : ∀ c p, c ≠ '\\' → openEscape (p.map f) = openEscape p →
      openEscape ((c :: p).map f) = openEscape (c :: p) := by
    intro c p hc ih
    rw [List.map_cons, openEscape_cons (fun h => hc ((hf c).mp h)), openEscape_cons hc, ih]
  induction p using pattern_induction with
  | nil => rfl
  | opened => simp only [List.map_cons, hslash, List.map_nil]
  | escaped c p ih =>
      simp only [List.map_cons, hslash]
      exact ih
  | any p ih => exact hcons _ _ (by decide) ih
  | one p ih => exact hcons _ _ (by decide) ih
  | char c p hc ih => exact hcons _ _ (ne_of_isMeta hc rfl) ih

/-! ## Texts -/

/-- Only patterns without an open escape fit anything. -/
theorem Like.openEscape_eq_false (h : Like p t) : openEscape p = false := by
  induction h with
  | nil => rfl
  | any _ _ ih => rwa [openEscape_cons (by decide)]
  | one _ _ ih => rwa [openEscape_cons (by decide)]
  | escaped _ _ ih => exact ih
  | char hc _ ih => rwa [openEscape_cons (ne_of_isMeta hc rfl)]

/-- The text has every plain character of the pattern. -/
theorem Like.mem {c : Char} (h : Like p t) (hc : isMeta c = false) (hmem : c ∈ p) : c ∈ t := by
  induction h with
  | nil => cases hmem
  | any taken _ ih =>
      rcases List.mem_cons.mp hmem with rfl | hmem
      · exact absurd hc (by decide)
      · exact List.mem_append_right taken (ih hmem)
  | one d _ ih =>
      rcases List.mem_cons.mp hmem with rfl | hmem
      · exact absurd hc (by decide)
      · exact List.mem_cons_of_mem d (ih hmem)
  | escaped d _ ih =>
      rcases List.mem_cons.mp hmem with rfl | hmem
      · exact absurd hc (by decide)
      · rcases List.mem_cons.mp hmem with rfl | hmem
        · exact List.mem_cons_self
        · exact List.mem_cons_of_mem d (ih hmem)
  | @char d _ _ _ _ ih =>
      rcases List.mem_cons.mp hmem with rfl | hmem
      · exact List.mem_cons_self
      · exact List.mem_cons_of_mem d (ih hmem)

theorem isMeta_toLower (c : Char) : isMeta c.toLower = isMeta c := by
  unfold isMeta
  simp only [Str.toLower_eq_iff (show '%'.isAlpha = false by decide),
    Str.toLower_eq_iff (show '_'.isAlpha = false by decide),
    Str.toLower_eq_iff (show '\\'.isAlpha = false by decide)]

/-- What fits fits in any case. -/
theorem Like.ilike (h : Like p t) : ILike p t := by
  unfold ILike Str.toAsciiLowercase
  induction h with
  | nil => exact Like.nil
  | any taken _ ih =>
      rw [List.map_append]
      exact ih.any _
  | one c _ ih => exact ih.one _
  | escaped c _ ih => exact ih.escaped _
  | @char c _ _ hc _ ih => exact ih.char ((isMeta_toLower c).trans hc)

/-! ## Shortest texts -/

theorem like_shortest (h : openEscape p = false) : Like p (shortest p) := by
  induction p using pattern_induction with
  | nil => exact Like.nil
  | opened => cases h
  | escaped c p ih => exact (ih h).escaped c
  | any p ih => exact (ih h).any []
  | one p ih => exact (ih h).one 'a'
  | char c p hc ih =>
      rw [openEscape_cons (ne_of_isMeta hc rfl)] at h
      rw [shortest_cons hc]
      exact (ih h).char hc

/-- The characters of a shortest text are those of the pattern, and a letter. -/
theorem mem_shortest {c : Char} (h : c ∈ shortest p) : c ∈ p ∨ c = 'a' := by
  induction p using pattern_induction with
  | nil => cases h
  | opened => cases h
  | escaped d p ih =>
      rcases List.mem_cons.mp h with rfl | h
      · simp
      · exact (ih h).imp_left fun h => List.mem_cons_of_mem _ (List.mem_cons_of_mem _ h)
  | any p ih => exact (ih h).imp_left (List.mem_cons_of_mem _)
  | one p ih =>
      rcases List.mem_cons.mp h with rfl | h
      · exact Or.inr rfl
      · exact (ih h).imp_left (List.mem_cons_of_mem _)
  | char d p hd ih =>
      rw [shortest_cons hd] at h
      rcases List.mem_cons.mp h with rfl | h
      · simp
      · exact (ih h).imp_left (List.mem_cons_of_mem _)

/-- Without escapes a shortest text is plain. -/
theorem isMeta_of_mem_shortest {c : Char} (hp : '\\' ∉ p) (h : c ∈ shortest p) :
    isMeta c = false := by
  induction p using pattern_induction with
  | nil => cases h
  | opened => cases h
  | escaped d p _ => exact absurd List.mem_cons_self hp
  | any p ih => exact ih (List.not_mem_of_not_mem_cons hp) h
  | one p ih =>
      rcases List.mem_cons.mp h with rfl | h
      · rfl
      · exact ih (List.not_mem_of_not_mem_cons hp) h
  | char d p hd ih =>
      rw [shortest_cons hd] at h
      rcases List.mem_cons.mp h with rfl | h
      · exact hd
      · exact ih (List.not_mem_of_not_mem_cons hp) h

/-- A shortest text has no more backslashes than the pattern, -/
theorem count_shortest_le (p : Str) : (shortest p).count '\\' ≤ p.count '\\' := by
  induction p using pattern_induction with
  | nil => rfl
  | opened => decide
  | escaped c p ih =>
      change (c :: shortest p).count '\\' ≤ _
      simp only [List.count_cons]
      omega
  | any p ih =>
      rw [List.count_cons_of_ne (by decide)]
      exact ih
  | one p ih =>
      rw [List.count_cons_of_ne (by decide)]
      exact ih
  | char c p hc ih =>
      rw [shortest_cons hc, List.count_cons, List.count_cons]
      omega

/-- and fewer if the pattern has any. -/
theorem count_shortest_lt (hp : '\\' ∈ p) : (shortest p).count '\\' < p.count '\\' := by
  induction p using pattern_induction with
  | nil => cases hp
  | opened => decide
  | escaped c p _ =>
      have hle := count_shortest_le p
      change (c :: shortest p).count '\\' < _
      simp only [List.count_cons, beq_self_eq_true, if_true]
      omega
  | any p ih =>
      rw [List.count_cons_of_ne (by decide)]
      exact ih (List.mem_of_ne_of_mem (by decide) hp)
  | one p ih =>
      rw [List.count_cons_of_ne (by decide)]
      exact ih (List.mem_of_ne_of_mem (by decide) hp)
  | char c p hc ih =>
      have hlt := ih (List.mem_of_ne_of_mem (ne_of_isMeta hc rfl).symm hp)
      rw [shortest_cons hc, List.count_cons, List.count_cons]
      omega

end Sql
