/-
# Well-formed programs

The six forms of a line, with decimal operands, each line with a newline, which the last one
may lack. What the parser should give are the instructions of the lines in order, their
parameters with the values of the operands. The newline stays in the last token of a line:
`atoi` stops at it, but the `EXIT` of a line that has one is no instruction, and a number
past an `int` is not read back (`acepta_iff`).

Key definitions: `Decimal`, `Linea`, `texto`, `Acepta`.
Key theorems: `getlines_texto`, `parseInstructions_linea`, `acepta_iff`, `not_acepta`.
-/
import Kiss.Consola.Archivo

namespace Kiss
namespace Consola

/-! ### Lines -/

/-- The byte of a digit. -/
def cifra (d : Fin 10) : UInt8 := UInt8.ofNat (48 + d.val)

/-- A decimal number as it is written. -/
structure Decimal where
  digitos : List (Fin 10)
  noVacio : digitos ≠ []

namespace Decimal

def texto (n : Decimal) : Cadena := n.digitos.map cifra

def valor (n : Decimal) : ℕ := n.digitos.foldl (fun a d => a * 10 + d.val) 0

end Decimal

/-- The forms of a line. -/
inductive Linea
  | noOp (n : Decimal)
  | io (n : Decimal)
  | read (a : Decimal)
  | write (a v : Decimal)
  | copy (a b : Decimal)
  | exit

/-- The newline, where there is one. -/
def finDeLinea (nl : Bool) : Cadena := if nl then [10] else []

namespace Linea

/-- The tokens of the line, the last one apart. -/
def partes : Linea → List Cadena × Cadena
  | .noOp n => ([literal "NO_OP"], n.texto)
  | .io n => ([literal "I/O"], n.texto)
  | .read a => ([literal "READ"], a.texto)
  | .write a v => ([literal "WRITE", a.texto], v.texto)
  | .copy a b => ([literal "COPY", a.texto], b.texto)
  | .exit => ([], literal "EXIT")

def operandos : Linea → List Decimal
  | .noOp n | .io n | .read n => [n]
  | .write a b | .copy a b => [a, b]
  | .exit => []

/-- The bytes of the line, single spaces between its tokens. -/
def texto (l : Linea) (nl : Bool) : Cadena :=
  [32].intercalate (l.partes.1 ++ [l.partes.2 ++ finDeLinea nl])

/-- What the line means: the codes with the operands they read. -/
def significado : Linea → List (CodigoInstruccion × List ℤ)
  | .noOp n => List.replicate n.valor (.noOp, [])
  | .io n => [(.io, [(n.valor : ℤ)])]
  | .read a => [(.read, [(a.valor : ℤ)])]
  | .write a v => [(.write, [(a.valor : ℤ), (v.valor : ℤ)])]
  | .copy a b => [(.copy, [(a.valor : ℤ), (b.valor : ℤ)])]
  | .exit => [(.exit, [])]

/-- What the parser makes of the tokens of the line. -/
def instrucciones (l : Linea) (nl : Bool) : List Instruction :=
  match l with
  | .noOp n => List.replicate (atoi (n.texto ++ finDeLinea nl)).toNat ⟨.noOp, []⟩
  | .io n => [⟨.io, [n.texto ++ finDeLinea nl]⟩]
  | .read a => [⟨.read, [a.texto ++ finDeLinea nl]⟩]
  | .write a v => [⟨.write, [a.texto, v.texto ++ finDeLinea nl]⟩]
  | .copy a b => [⟨.copy, [a.texto, b.texto ++ finDeLinea nl]⟩]
  | .exit => [⟨.exit, []⟩]

end Linea

/-- The lines of a file: the last one has a newline or not. -/
def conFin : List Linea → Bool → List (Linea × Bool)
  | [], _ => []
  | [l], nl => [(l, nl)]
  | l :: l' :: ls, nl => (l, true) :: conFin (l' :: ls) nl

def lineas (ls : List Linea) (nl : Bool) : List Cadena := (conFin ls nl).map fun x => x.1.texto x.2

/-- The bytes of the file. -/
def texto (ls : List Linea) (nl : Bool) : Cadena := (lineas ls nl).flatten

/-- An instruction with its parameters as they are read. -/
def leida (i : Instruction) : CodigoInstruccion × List ℤ := (i.codigo, i.parametros.map atoi)

/-- The parser answers the program of the lines. -/
def Acepta (ls : List Linea) (programSize : ℤ) (r : Option (Option Program)) : Prop :=
  ∃ p, r = some (some p) ∧ p.size = programSize ∧ p.instructions.map leida = ls.flatMap Linea.significado

/-- No `EXIT` has a newline, and the operands fit in an `int`. -/
structure SeAcepta (ls : List Linea) (nl : Bool) : Prop where
  exit : ∀ i, ls[i]? = some .exit → i + 1 = ls.length ∧ nl = false
  operandos : ∀ l ∈ ls, ∀ n ∈ l.operandos, n.valor < 2 ^ 31

variable {stringSplit : Cadena → List Cadena} {n : Decimal} {l : Linea} {ls : List Linea} {nl : Bool}

/-! ### Numbers -/

theorem cifra_spec (d : Fin 10) : (48 ≤ cifra d && cifra d ≤ 57) = true ∧ (cifra d).toNat - 48 = d.val ∧
    isSpace (cifra d) = false ∧ cifra d ≠ 43 ∧ cifra d ≠ 45 ∧ cifra d ≠ 32 ∧ cifra d ≠ 10 := by
  revert d
  decide

theorem readDigits_texto (nl : Bool) : ∀ (ds : List (Fin 10)) (acc : ℕ),
    readDigits acc (ds.map cifra ++ finDeLinea nl) = ds.foldl (fun a d => a * 10 + d.val) acc
  | [], acc => by cases nl <;> rfl
  | d :: ds, acc => by
    obtain ⟨h1, h2, -⟩ := cifra_spec d
    rw [List.map_cons, List.cons_append, readDigits, if_pos h1, h2, readDigits_texto nl ds, List.foldl_cons]

/-- What is read of a number: it is cut to an `int`. -/
theorem atoi_texto (n : Decimal) (nl : Bool) :
    atoi (n.texto ++ finDeLinea nl) = toInt (min n.valor (2 ^ 63 - 1) : ℕ) := by
  obtain ⟨_ | ⟨d, ds⟩, hn⟩ := n
  · exact absurd rfl hn
  · obtain ⟨-, -, h3, h4, h5, -⟩ := cifra_spec d
    have h6 := readDigits_texto nl (d :: ds) 0
    rw [List.map_cons, List.cons_append] at h6
    unfold atoi
    rw [Decimal.texto, List.map_cons, List.cons_append, List.dropWhile_cons, h3, if_neg Bool.false_ne_true]
    split
    · rename_i h
      exact absurd (List.cons.inj h).1 h5
    · rename_i h
      exact absurd (List.cons.inj h).1 h4
    · rw [h6]
      rfl

theorem toInt_lt (n : ℤ) : toInt n < 2 ^ 31 := by
  unfold toInt
  exact Int.bmod_lt (by decide)

/-- A number is read back when it fits in an `int`. -/
theorem atoi_eq_valor_iff (n : Decimal) (nl : Bool) : atoi (n.texto ++ finDeLinea nl) = n.valor ↔ n.valor < 2 ^ 31 := by
  rw [atoi_texto]
  constructor
  · intro h
    have h1 := toInt_lt (min n.valor (2 ^ 63 - 1) : ℕ)
    omega
  · intro h
    rw [min_eq_left (by omega), toInt_of_lt h]

theorem texto_ne_nil (n : Decimal) : n.texto ≠ [] := fun h => n.noVacio (List.map_eq_nil_iff.mp h)

theorem not_mem_texto (n : Decimal) : 32 ∉ n.texto ∧ 10 ∉ n.texto := by
  constructor
  · intro h
    obtain ⟨d, -, hd⟩ := List.mem_map.mp h
    exact (cifra_spec d).2.2.2.2.2.1 hd
  · intro h
    obtain ⟨d, -, hd⟩ := List.mem_map.mp h
    exact (cifra_spec d).2.2.2.2.2.2 hd

/-! ### The text and its lines -/

theorem intercalate_concat (ts : List Cadena) (t e : Cadena) :
    [32].intercalate (ts ++ [t ++ e]) = [32].intercalate (ts ++ [t]) ++ e := by
  induction ts with
  | nil => simp
  | cons u ts ih =>
    rcases ts with _ | ⟨w, ts⟩
    · simp [List.intercalate_cons_cons]
    · simp only [List.cons_append] at ih ⊢
      rw [List.intercalate_cons_cons, List.intercalate_cons_cons, ih]
      simp only [List.append_assoc]

theorem not_mem_intercalate {ts : List Cadena} (h : ∀ t ∈ ts, 10 ∉ t) : 10 ∉ [32].intercalate ts := by
  induction ts with
  | nil => simp
  | cons t ts ih =>
    have h1 := h t List.mem_cons_self
    have h2 := ih fun u hu => h u (List.mem_cons_of_mem t hu)
    rcases ts with _ | ⟨u, ts⟩
    · simpa using h1
    · rw [List.intercalate_cons_cons]
      simp only [List.mem_append, List.mem_singleton]
      rintro ((h3 | h3) | h3)
      · exact h1 h3
      · cases h3
      · exact h2 h3

/-- The tokens of a line have no space and no newline. -/
theorem partes_spec (l : Linea) : ∀ t ∈ l.partes.1 ++ [l.partes.2], t ≠ [] ∧ 32 ∉ t ∧ 10 ∉ t := by
  have hn : ∀ n : Decimal, n.texto ≠ [] ∧ 32 ∉ n.texto ∧ 10 ∉ n.texto := fun n =>
    ⟨texto_ne_nil n, not_mem_texto n⟩
  have hc : ∀ s ∈ [literal "NO_OP", literal "I/O", literal "READ", literal "WRITE", literal "COPY",
      literal "EXIT"], s ≠ [] ∧ 32 ∉ s ∧ 10 ∉ s := by decide
  cases l <;> simp only [Linea.partes, List.cons_append, List.nil_append, List.forall_mem_cons] <;>
    simp [hn, hc]

theorem texto_eq (l : Linea) (nl : Bool) :
    l.texto nl = [32].intercalate (l.partes.1 ++ [l.partes.2]) ++ finDeLinea nl := intercalate_concat ..

theorem getlines_append : ∀ {a : Cadena} (s : Cadena), 10 ∉ a →
    getlines (a ++ 10 :: s) = (a ++ [10]) :: getlines s
  | [], s, _ => by simp [getlines]
  | b :: a, s, h => by
    obtain ⟨hb, ha⟩ := not_or.mp (mt List.mem_cons.mpr h)
    rw [List.cons_append, getlines, if_neg (Ne.symm hb), getlines_append s ha]
    rfl

theorem getlines_self : ∀ {a : Cadena}, a ≠ [] → 10 ∉ a → getlines a = [a]
  | [b], _, h => by
    obtain ⟨hb, -⟩ := not_or.mp (mt List.mem_cons.mpr h)
    rw [getlines, if_neg (Ne.symm hb)]
    rfl
  | b :: b' :: a, _, h => by
    obtain ⟨hb, ha⟩ := not_or.mp (mt List.mem_cons.mpr h)
    rw [getlines, if_neg (Ne.symm hb), getlines_self (List.cons_ne_nil b' a) ha]

theorem getlines_linea (l : Linea) (s : Cadena) : getlines (l.texto true ++ s) = l.texto true :: getlines s := by
  have h : 10 ∉ [32].intercalate (l.partes.1 ++ [l.partes.2]) :=
    not_mem_intercalate fun t ht => (partes_spec l t ht).2.2
  rw [texto_eq, List.append_assoc]
  exact getlines_append s h

/-- **The lines** of the file are read as they were written. -/
theorem getlines_texto : ∀ (ls : List Linea) (nl : Bool), getlines (texto ls nl) = lineas ls nl
  | [], _ => rfl
  | [l], true => by
    have h := getlines_linea l []
    rw [List.append_nil] at h
    simpa [texto, lineas, conFin, getlines] using h
  | [l], false => by
    have h1 : 10 ∉ l.texto false := by
      rw [texto_eq, finDeLinea, if_neg Bool.false_ne_true, List.append_nil]
      exact not_mem_intercalate fun t ht => (partes_spec l t ht).2.2
    have h2 : l.texto false ≠ [] := by
      cases l <;> simp [Linea.texto, Linea.partes, literal, List.intercalate_cons_cons, finDeLinea]
    simpa [texto, lineas, conFin] using getlines_self h2 h1
  | l :: l' :: ls, nl => by
    have h : texto (l :: l' :: ls) nl = l.texto true ++ texto (l' :: ls) nl := by simp [texto, lineas, conFin]
    rw [h, getlines_linea, getlines_texto (l' :: ls) nl]
    rfl

/-! ### One line -/

/-- `string_split` by a space, where there is one between tokens. -/
def Separa (stringSplit : Cadena → List Cadena) : Prop :=
  ∀ ts : List Cadena, ts ≠ [] → (∀ t ∈ ts, t ≠ [] ∧ 32 ∉ t) → stringSplit ([32].intercalate ts) = ts

/-- What is between spaces, when there is one between tokens. -/
theorem separa_tokens : Separa tokens := by
  intro ts h1 h2
  rw [tokens, List.splitOn_intercalate 32 (fun t ht => (h2 t ht).2) h1, List.filter_eq_self]
  intro t ht
  simpa using (h2 t ht).1

/-- The newline goes to the last token. -/
theorem stringSplit_linea (hs : Separa stringSplit) (l : Linea) (nl : Bool) :
    stringSplit (l.texto nl) = l.partes.1 ++ [l.partes.2 ++ finDeLinea nl] := by
  refine hs _ (by simp) fun t ht => ?_
  rcases List.mem_append.mp ht with ht | ht
  · obtain ⟨h1, h2, -⟩ := partes_spec l t (List.mem_append_left _ ht)
    exact ⟨h1, h2⟩
  · obtain ⟨h1, h2, -⟩ := partes_spec l l.partes.2 (List.mem_append_right _ List.mem_cons_self)
    rw [List.mem_singleton.mp ht]
    refine ⟨List.append_ne_nil_of_left_ne_nil h1 _, ?_⟩
    rw [List.mem_append, not_or]
    exact ⟨h2, by cases nl <;> decide⟩

/-- **A well-formed line** gives its instructions, unless it is an `EXIT` with its newline. -/
theorem parseInstructions_linea (hs : Separa stringSplit) (l : Linea) (nl : Bool) :
    (l = .exit ∧ nl = true → parseInstructions (stringSplit (l.texto nl)) = some none) ∧
      (¬ (l = .exit ∧ nl = true) →
        parseInstructions (stringSplit (l.texto nl)) = some (some (l.instrucciones nl))) := by
  rw [stringSplit_linea hs]
  constructor
  · rintro ⟨rfl, rfl⟩
    decide
  · intro h
    cases l with
    | exit =>
      obtain rfl : nl = false := by
        by_contra hnl
        exact h ⟨rfl, by simpa using hnl⟩
      rfl
    | _ => rfl

/-! ### The program -/

theorem map_conFin : ∀ (ls : List Linea) (nl : Bool), (conFin ls nl).map Prod.fst = ls
  | [], _ => rfl
  | [_], _ => rfl
  | l :: l' :: ls, nl => by rw [conFin, List.map_cons, map_conFin (l' :: ls) nl]

/-- The `EXIT` that the parser takes is the one at the end of the file. -/
theorem conFin_exit_iff : ∀ (ls : List Linea) (nl : Bool), (∀ x ∈ conFin ls nl, ¬ (x.1 = .exit ∧ x.2 = true)) ↔
    ∀ i, ls[i]? = some .exit → i + 1 = ls.length ∧ nl = false
  | [], nl => by simp [conFin]
  | [l], nl => by
    constructor
    · intro h i hi
      obtain rfl : i = 0 := by
        have := (List.getElem?_eq_some_iff.mp hi).1
        rw [List.length_singleton] at this
        omega
      refine ⟨rfl, ?_⟩
      by_contra hnl
      exact h (l, nl) List.mem_cons_self ⟨Option.some.inj hi, by simpa using hnl⟩
    · rintro h x hx ⟨h1, h2⟩
      rw [List.mem_singleton.mp hx] at h1 h2
      have h3 := (h 0 (by rw [← h1]; rfl)).2
      exact absurd (h2.symm.trans h3) (by decide)
  | l :: l' :: ls, nl => by
    have ih := conFin_exit_iff (l' :: ls) nl
    rw [conFin, List.forall_mem_cons, ih]
    constructor
    · rintro ⟨h1, h2⟩ i hi
      cases i with
      | zero => exact absurd ⟨Option.some.inj hi, rfl⟩ h1
      | succ i =>
        obtain ⟨h3, h4⟩ := h2 i hi
        exact ⟨by rw [h3]; rfl, h4⟩
    · intro h
      refine ⟨?_, fun i hi => ?_⟩
      · rintro ⟨h1, -⟩
        obtain ⟨h2, -⟩ := h 0 (by rw [← h1]; rfl)
        simp at h2
      · obtain ⟨h1, h2⟩ := h (i + 1) hi
        exact ⟨by simpa using h1, h2⟩

/-- The loop over well-formed lines. -/
theorem parseLines_lineas (hs : Separa stringSplit) : ∀ xs : List (Linea × Bool),
    ((∀ x ∈ xs, ¬ (x.1 = .exit ∧ x.2 = true)) → parseLines stringSplit (xs.map fun x => x.1.texto x.2) =
        some (some (xs.flatMap fun x => x.1.instrucciones x.2))) ∧
      (¬ (∀ x ∈ xs, ¬ (x.1 = .exit ∧ x.2 = true)) →
        parseLines stringSplit (xs.map fun x => x.1.texto x.2) = some none)
  | [] => ⟨fun _ => rfl, fun h => absurd (fun x hx => absurd hx List.not_mem_nil) h⟩
  | x :: xs => by
    obtain ⟨ih1, ih2⟩ := parseLines_lineas hs xs
    obtain ⟨h1, h2⟩ := parseInstructions_linea hs x.1 x.2
    rw [List.map_cons, parseLines]
    by_cases hx : x.1 = .exit ∧ x.2 = true
    · refine ⟨fun h => absurd hx (h x List.mem_cons_self), fun _ => ?_⟩
      rw [h1 hx]
      rfl
    · rw [h2 hx]
      constructor
      · intro h
        rw [ih1 fun y hy => h y (List.mem_cons_of_mem x hy)]
        rfl
      · intro h
        rw [ih2 fun h' => h (List.forall_mem_cons.mpr ⟨hx, h'⟩)]
        rfl

/-! ### What it means -/

/-- The instructions of a line are what it means when its numbers fit, and otherwise no more. -/
theorem leida_instrucciones (l : Linea) (nl : Bool) :
    ((l.instrucciones nl).map leida).length ≤ l.significado.length ∧
      ((l.instrucciones nl).map leida = l.significado ↔ ∀ n ∈ l.operandos, n.valor < 2 ^ 31) := by
  have h1 : ∀ n : Decimal, atoi n.texto = n.valor ↔ n.valor < 2 ^ 31 := fun n => by
    have h := atoi_eq_valor_iff n false
    rwa [finDeLinea, if_neg Bool.false_ne_true, List.append_nil] at h
  cases l with
  | noOp n =>
    have h2 := atoi_eq_valor_iff n nl
    have h3 : (atoi (n.texto ++ finDeLinea nl)).toNat ≤ n.valor ∧
        ((atoi (n.texto ++ finDeLinea nl)).toNat = n.valor ↔ n.valor < 2 ^ 31) := by
      have h4 : atoi (n.texto ++ finDeLinea nl) < 2 ^ 31 := atoi_texto n nl ▸ toInt_lt _
      omega
    simp only [Linea.instrucciones, Linea.significado, Linea.operandos, List.map_replicate, List.length_replicate,
      List.forall_mem_singleton]
    refine ⟨h3.1, ?_⟩
    rw [← h3.2]
    constructor
    · intro h
      simpa using congrArg List.length h
    · intro h
      rw [h]
      rfl
  | io n =>
    refine ⟨le_refl _, ?_⟩
    simp [Linea.instrucciones, Linea.significado, Linea.operandos, leida, atoi_eq_valor_iff]
  | read n =>
    refine ⟨le_refl _, ?_⟩
    simp [Linea.instrucciones, Linea.significado, Linea.operandos, leida, atoi_eq_valor_iff]
  | write a b =>
    refine ⟨le_refl _, ?_⟩
    simp [Linea.instrucciones, Linea.significado, Linea.operandos, leida, atoi_eq_valor_iff, h1]
  | copy a b =>
    refine ⟨le_refl _, ?_⟩
    simp [Linea.instrucciones, Linea.significado, Linea.operandos, leida, atoi_eq_valor_iff, h1]
  | exit =>
    refine ⟨le_refl _, ?_⟩
    simp [Linea.instrucciones, Linea.significado, Linea.operandos, leida]

theorem length_flatMap_le {α β : Type*} {f g : α → List β} : ∀ {xs : List α},
    (∀ x ∈ xs, (f x).length ≤ (g x).length) → (xs.flatMap f).length ≤ (xs.flatMap g).length
  | [], _ => Nat.le_refl _
  | x :: xs, h => by
    obtain ⟨h1, h2⟩ := List.forall_mem_cons.mp h
    rw [List.flatMap_cons, List.flatMap_cons, List.length_append, List.length_append]
    exact Nat.add_le_add h1 (length_flatMap_le h2)

/-- Two concatenations, one of lists that are no longer, are equal when their lists are. -/
theorem flatMap_eq_iff {α β : Type*} {f g : α → List β} : ∀ {xs : List α},
    (∀ x ∈ xs, (f x).length ≤ (g x).length) → (xs.flatMap f = xs.flatMap g ↔ ∀ x ∈ xs, f x = g x)
  | [], _ => by simp
  | x :: xs, h => by
    obtain ⟨h1, h2⟩ := List.forall_mem_cons.mp h
    have hle := length_flatMap_le h2
    rw [List.flatMap_cons, List.flatMap_cons, List.forall_mem_cons, ← flatMap_eq_iff h2]
    constructor
    · intro he
      have hlen := congrArg List.length he
      rw [List.length_append, List.length_append] at hlen
      exact List.append_inj he (by omega)
    · rintro ⟨h3, h4⟩
      rw [h3, h4]

/-- **What the parser accepts**: a well-formed program is taken as it is meant exactly when its
only `EXIT` is at the very end of the file and its numbers fit in an `int`. -/
theorem acepta_iff (hs : Separa stringSplit) (ls : List Linea) (nl : Bool) (programSize : ℤ) :
    Acepta ls programSize (Archivo.parseProgram stringSplit (texto ls nl) programSize) ↔ SeAcepta ls nl := by
  obtain ⟨h1, h2⟩ := parseLines_lineas hs (conFin ls nl)
  have hexit := conFin_exit_iff ls nl
  have hsig : ls.flatMap Linea.significado = (conFin ls nl).flatMap fun x => x.1.significado := by
    conv_lhs => rw [← map_conFin ls nl, List.flatMap_map]
  have hop : ((conFin ls nl).flatMap fun x => (x.1.instrucciones x.2).map leida) =
      ls.flatMap Linea.significado ↔ ∀ l ∈ ls, ∀ n ∈ l.operandos, n.valor < 2 ^ 31 := by
    rw [hsig, flatMap_eq_iff fun x _ => (leida_instrucciones x.1 x.2).1]
    conv_rhs => rw [← map_conFin ls nl]
    rw [List.forall_mem_map]
    exact forall₂_congr fun x _ => (leida_instrucciones x.1 x.2).2
  unfold Acepta Archivo.parseProgram parseProgram
  rw [getlines_texto, lineas]
  by_cases hc : ∀ x ∈ conFin ls nl, ¬ (x.1 = .exit ∧ x.2 = true)
  · rw [h1 hc]
    constructor
    · rintro ⟨p, hp, -, hm⟩
      obtain rfl := Option.some.inj (Option.some.inj hp)
      rw [List.map_flatMap, hop] at hm
      exact ⟨hexit.mp hc, hm⟩
    · rintro ⟨-, h3⟩
      refine ⟨_, rfl, rfl, ?_⟩
      rw [List.map_flatMap, hop]
      exact h3
  · rw [h2 hc]
    constructor
    · rintro ⟨p, hp, -⟩
      cases hp
    · rintro ⟨h3, -⟩
      exact absurd (hexit.mpr h3) hc

/-- `NO_OP 3`, `COPY 4 5` and `EXIT` without its newline. -/
theorem acepta_iff_exitAlFinal :
    Acepta [.noOp ⟨[3], by simp⟩, .copy ⟨[4], by simp⟩ ⟨[5], by simp⟩, .exit] 64
      (Archivo.parseProgram tokens (texto [.noOp ⟨[3], by simp⟩, .copy ⟨[4], by simp⟩ ⟨[5], by simp⟩, .exit] false)
        64) := by
  refine (acepta_iff separa_tokens _ _ _).mpr ⟨fun i hi => ?_, ?_⟩
  · match i with
    | 0 => cases hi
    | 1 => cases hi
    | 2 => exact ⟨rfl, rfl⟩
    | i + 3 => cases hi
  · decide +kernel

/-- An `EXIT` with its newline. -/
theorem not_acepta : ¬ ∀ (stringSplit : Cadena → List Cadena), Separa stringSplit →
    ∀ (ls : List Linea) (nl : Bool) (programSize : ℤ),
      Acepta ls programSize (Archivo.parseProgram stringSplit (texto ls nl) programSize) := by
  intro h
  obtain ⟨p, hp, -⟩ := h tokens separa_tokens [.exit] true 0
  have h1 : Archivo.parseProgram tokens (texto [.exit] true) 0 = some none := by decide +kernel
  rw [h1] at hp
  cases hp

end Consola
end Kiss
