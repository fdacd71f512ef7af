/-
# A process by itself

What the memory module does for a process depends on that process alone: the pages it
has in memory with their bits and bytes, in order, where its hand is, its swap file and
the size of its tables. `Proceso` is that part of the state without frame numbers, with
the operations on it under the names of the module's, and `vista` reads it off the state.
Where the frames agree, an operation of the module on one process is the operation of its
`Proceso`, as long as there is a free frame when one is needed, and leaves alone whatever
belongs to the others (`Ajenas`).

Key definitions: `Proceso`, `vista`, `Ajenas`, `Ve`.
-/
import Kiss.Memoria.Marcos

namespace Kiss
namespace Memoria

open Reloj (avanzar)

/-! ### The operations on one process -/

/-- A page in memory. -/
structure Residente where
  numeroPagina : ℕ
  uso : Bool
  modificado : Bool
  bytes : ℕ → UInt8

/-- A process: its pages in memory, its hand, its file and the length of its tables. -/
structure Proceso where
  residentes : List Residente
  puntero : ℕ
  archivo : Option Archivo
  tablas : List (Option ℕ)

/-- The bits of the pages in memory. -/
def bitsDe : Reloj.Paginas (List Residente) where
  leer l i := l[i]?.map fun r => (r.uso, r.modificado)
  limpiar l i := l.modify i fun r => { r with uso := false }

namespace Proceso

section Operaciones

variable (c : ConfigMemoria) (v : Proceso)

/-- Whether the page has an entry; `none` when it is beyond the tables. -/
def buscar (p : ℕ) : Option Bool :=
  v.tablas[numeroDeTabla c p]?.join.map fun k => decide (numeroDePagina c p < k)

/-- The page in memory. -/
def residente (p : ℕ) : Option Residente := v.residentes.find? fun r => r.numeroPagina = p

def conResidentes (l : List Residente) : Proceso := { v with residentes := l }

/-- An assignment to a page in memory. -/
def conResidente (p : ℕ) (f : Residente → Residente) : Proceso :=
  { v with residentes := v.residentes.map fun r => if r.numeroPagina = p then f r else r }

/-- The page a replacement takes: the pages with the bits it leaves, and where it is. -/
def victima : Option (List Residente × ℕ) :=
  match c.algoritmoReemplazo with
  | .clock => Reloj.clock bitsDe c.marcosPorProceso (c.marcosPorProceso + 1) v.residentes v.puntero
  | .clockM => Reloj.clockM bitsDe c.marcosPorProceso 2 v.residentes v.puntero
  | .otro => none

def leerSwap (p : ℕ) : Option (ℕ → UInt8) :=
  v.archivo.bind fun a => leerArchivo c a (posicionSwap c (numeroDeTabla c p) (numeroDePagina c p))

def escribirSwap (r : Residente) : Option Proceso :=
  v.archivo.map fun a => { v with
    archivo := some (escribirArchivo c a
      (posicionSwap c (numeroDeTabla c r.numeroPagina) r.numeroPagina) r.bytes) }

def guardar (r : Residente) : Option Proceso := if r.modificado then v.escribirSwap c r else some v

def reemplazar (p : ℕ) : Option Proceso := do
  let (l, i) ← v.victima c
  let r ← l[i]?
  let v ← guardar c { v with residentes := l, puntero := i } r
  let dato ← v.leerSwap c p
  some { v with
    residentes := v.residentes.set i ⟨p, true, false, dato⟩
    puntero := avanzar c.marcosPorProceso i }

def asignar (p : ℕ) : Option Proceso := do
  let dato ← v.leerSwap c p
  some { v with
    residentes := v.residentes ++ [⟨p, true, false, dato⟩]
    puntero := avanzar c.marcosPorProceso v.puntero }

def cargar (p : ℕ) : Option Proceso :=
  if v.residentes.length < c.marcosPorProceso then v.asignar c p else v.reemplazar c p

/-- The page is brought to memory when it is not there. -/
def traer (p : ℕ) : Option Proceso := if (v.residente p).isSome then some v else v.cargar c p

def escribir (p d w : ℕ) : Option (ℕ × Proceso) := do
  let b ← v.buscar c p
  if d < c.tamPagina then
    if b then
      let v ← v.traer c p
      some (0, v.conResidente p fun r =>
        { r with uso := true, modificado := true, bytes := Copia.copiar r.bytes d 4 (Copia.palabra w) })
    else none
  else some (1, v)

def leer (p d : ℕ) : Option (ℕ × Proceso) := do
  let b ← v.buscar c p
  if c.tamPagina ≤ d then some (u32Max, v)
  else if b then
    let v ← v.traer c p
    let r ← v.residente p
    some (Copia.valor (Copia.leer r.bytes d 4), v.conResidente p fun r => { r with uso := true })
  else none

def buscarMarco (p : ℕ) : Option Proceso := do
  let b ← v.buscar c p
  if b then v.traer c p else none

def suspenderPaginas : List Residente → Proceso → Option Proceso
  | [], v => some v
  | r :: l, v => do
    let v ← (v.conResidentes l).escribirSwap c r
    suspenderPaginas l v

def suspender : Option Proceso := suspenderPaginas c v.residentes { v with puntero := 0 }

end Operaciones

end Proceso

/-! ### The process in the state -/

/-- What is in memory of a page assigned. -/
def residente (c : ConfigMemoria) (s : MemoriaGlobal) (r : RegistroAsignado) : Residente :=
  match s.pagina r.paginaAsignada with
  | some w => ⟨r.numeroPagina, w.uso, w.modificado,
      Copia.leer s.espacioUsuario (inicioMarco c w.numeroMarco) c.tamPagina⟩
  | none => ⟨r.numeroPagina, false, false, fun _ => 0⟩

def vistaDe (c : ConfigMemoria) (s : MemoriaGlobal) (tt : TablaPrimerNivel) : Proceso where
  residentes := tt.paginasAsignadas.map (residente c s)
  puntero := tt.punteroMarcos
  archivo := s.swap tt.pcbId
  tablas := tt.tablasSegundoNivel.map s.largo

/-- The process of a table. -/
def vista (c : ConfigMemoria) (s : MemoriaGlobal) (t : ℕ) : Option Proceso :=
  (s.tabla t).map (vistaDe c s)

/-- What belongs to the processes of other tables is the same in both states. -/
structure Ajenas (c : ConfigMemoria) (t : ℕ) (s s' : MemoriaGlobal) : Prop where
  propia : (s'.tabla t).map (fun tt => (tt.tablasSegundoNivel, tt.pcbId)) =
    (s.tabla t).map fun tt => (tt.tablasSegundoNivel, tt.pcbId)
  tabla : ∀ u, u ≠ t → s'.tabla u = s.tabla u
  largo : s'.largo = s.largo
  pagina : ∀ u p q, u ≠ t → dir c s u p = some q → s'.pagina q = s.pagina q
  registro : ∀ f u p, f < c.cantidad → u ≠ t → s.registroEspacioUsuario f = ⟨true, u, p⟩ →
    s'.registroEspacioUsuario f = ⟨true, u, p⟩ ∧
      Copia.leer s'.espacioUsuario (inicioMarco c f) c.tamPagina =
        Copia.leer s.espacioUsuario (inicioMarco c f) c.tamPagina
  swap : ∀ tt pid, s.tabla t = some tt → pid ≠ tt.pcbId → s'.swap pid = s.swap pid

/-- From `s0` on, only the process of table `t` changed, and it is `v` now. -/
structure Ve (c : ConfigMemoria) (fin : List ℕ) (t : ℕ) (s0 s : MemoriaGlobal) (v : Proceso) : Prop where
  marcos : Marcos c s fin
  vista : vista c s t = some v
  ajenas : Ajenas c t s0 s

variable {c : ConfigMemoria} {s s' s'' s0 : MemoriaGlobal} {t u p : ℕ} {q : ℕ × ℕ} {fin : List ℕ}
  {tt tu : TablaPrimerNivel} {v : Proceso} {r : RegistroAsignado} {w : Pagina}

/-! ### Frames -/

theorem inicioMarco_eq {f : ℕ} (hf : f < c.cantidad) : inicioMarco c f = f * c.tamPagina ∧
    f * c.tamPagina + c.tamPagina ≤ c.tamMemoria := by
  have h1 : (f + 1) * c.tamPagina ≤ c.tamMemoria :=
    (Nat.mul_le_mul_right _ hf).trans (Nat.div_mul_le_self _ _)
  rw [Nat.succ_mul] at h1
  have h2 := c.tamMemoria_lt
  have h3 := c.tamPagina_pos
  exact ⟨toU32_of_lt (by omega), h1⟩

/-- A whole frame is inside the user space. -/
theorem marco_le {f : ℕ} (hf : f < c.cantidad) : inicioMarco c f + c.tamPagina ≤ c.tamMemoria := by
  obtain ⟨h1, h2⟩ := inicioMarco_eq hf
  rw [h1]
  exact h2

theorem marcos_disjuntos {f g : ℕ} (hf : f < c.cantidad) (hg : g < c.cantidad) (h : f ≠ g) :
    inicioMarco c f + c.tamPagina ≤ inicioMarco c g ∨
      inicioMarco c g + c.tamPagina ≤ inicioMarco c f := by
  rw [(inicioMarco_eq hf).1, (inicioMarco_eq hg).1, ← Nat.succ_mul, ← Nat.succ_mul]
  rcases Nat.lt_or_gt_of_ne h with h | h
  · exact Or.inl (Nat.mul_le_mul_right _ h)
  · exact Or.inr (Nat.mul_le_mul_right _ h)

/-! ### What is left alone -/

theorem residente_congr (h1 : s'.pagina r.paginaAsignada = s.pagina r.paginaAsignada)
    (h2 : ∀ w, s.pagina r.paginaAsignada = some w →
      Copia.leer s'.espacioUsuario (inicioMarco c w.numeroMarco) c.tamPagina =
        Copia.leer s.espacioUsuario (inicioMarco c w.numeroMarco) c.tamPagina) :
    residente c s' r = residente c s r := by
  unfold residente
  rw [h1]
  rcases h : s.pagina r.paginaAsignada with _ | w
  · rfl
  · simp only [h2 w h]

namespace Ajenas

theorem refl (c : ConfigMemoria) (t : ℕ) (s : MemoriaGlobal) : Ajenas c t s s where
  propia := rfl
  tabla _ _ := rfl
  largo := rfl
  pagina _ _ _ _ _ := rfl
  registro _ _ _ _ _ h := ⟨h, rfl⟩
  swap _ _ _ _ := rfl

theorem dir (h : Ajenas c t s s') : dir c s' = dir c s := by
  funext u
  apply dir_congr _ h.largo
  by_cases hu : u = t
  · have h1 := congrArg (Option.map Prod.fst) h.propia
    rw [Option.map_map, Option.map_map] at h1
    rw [hu]
    exact h1
  · rw [h.tabla u hu]

theorem trans (h : Ajenas c t s s') (h' : Ajenas c t s' s'') : Ajenas c t s s'' where
  propia := h'.propia.trans h.propia
  tabla u hu := (h'.tabla u hu).trans (h.tabla u hu)
  largo := h'.largo.trans h.largo
  pagina u p q hu hq := (h'.pagina u p q hu (by rw [h.dir, hq])).trans (h.pagina u p q hu hq)
  registro f u p hf hu hg := by
    obtain ⟨h1, h2⟩ := h.registro f u p hf hu hg
    obtain ⟨h3, h4⟩ := h'.registro f u p hf hu h1
    exact ⟨h3, h4.trans h2⟩
  swap tt pid ht hp := by
    have h1 := h.propia
    rw [ht, Option.map_some] at h1
    obtain ⟨tt', ht', h2⟩ := Option.map_eq_some_iff.mp h1
    obtain ⟨-, h2⟩ := Prod.mk.inj h2
    exact (h'.swap tt' pid ht' (h2 ▸ hp)).trans (h.swap tt pid ht hp)

/-- The process of another table is the same, when it has another file. -/
theorem vista (h : Ajenas c t s s') (hm : Marcos c s fin) (hu : u ≠ t) (ht : s.tabla t = some tt)
    (hp : ∀ tu, s.tabla u = some tu → tu.pcbId ≠ tt.pcbId) : vista c s' u = vista c s u := by
  unfold Memoria.vista
  rw [h.tabla u hu]
  rcases htu : s.tabla u with _ | tu
  · rfl
  rw [Option.map_some, Option.map_some]
  unfold vistaDe
  rw [h.largo, h.swap tt _ ht (hp tu htu)]
  have h1 : tu.paginasAsignadas.map (residente c s') = tu.paginasAsignadas.map (residente c s) := by
    refine List.map_congr_left fun r hr => ?_
    obtain ⟨hd, w, hw, -, hf, hg⟩ := hm.asignada htu hr
    refine residente_congr (h.pagina u _ _ hu hd) fun w' hw' => ?_
    rw [hw] at hw'
    cases hw'
    exact (h.registro _ u _ hf hu hg).2
  rw [h1]

end Ajenas

end Memoria
end Kiss
