/-
# The translation of addresses

`cpu/src/mmu.c`. The memory module is a `Servidor`: what it answers to a message,
which may be an error of the socket, and its state afterwards.

Key definitions: `Servidor`, `Mmu`, `direccionFisica`, `Traduce`.
Key theorems: `direccionFisica_traduce`.
-/
import Kiss.Cpu.Tlb

namespace Kiss
namespace Cpu

/-! ### What is sent to the memory module -/

/-- `t_direccion`. -/
structure Direccion where
  pid : ℕ
  tablaPrimerNivel : ℕ
  tablaSegundoNivel : ℕ
  pagina : ℕ
  deriving DecidableEq, Repr

/-- `t_operacion_EU`. -/
structure OperacionEU where
  pid : ℕ
  numeroMarco : ℕ
  desplazamiento : ℕ
  dato : ℕ
  deriving DecidableEq, Repr

/-- The requests of the CPU. -/
inductive Mensaje
  | buscarTablaDePaginas (d : Direccion)
  | buscarMarco (d : Direccion)
  | leerMarco (o : OperacionEU)
  | escribirMarco (o : OperacionEU)
  deriving DecidableEq, Repr

/-- An intact answer: a number under a header, or a signal under `MC_SIGNAL`. -/
inductive Respuesta
  | numero (header : MessageCode) (n : ℕ)
  | signal (s : Signal)
  deriving DecidableEq, Repr

/-- The memory module: `none` is an error of the socket. -/
abbrev Servidor (σ : Type*) := Mensaje → σ → Option Respuesta × σ

/-! ### The MMU -/

/-- `t_setup_memoria`. -/
structure SetupMemoria where
  entradasPorTabla : ℕ
  tamPagina : ℕ
  pos : 0 < tamPagina

/-- `t_mmu`. -/
structure Mmu where
  tlb : Tlb
  configMemoria : SetupMemoria

/-- `t_pcb` with the fields that `serializar_pcb` sends. -/
structure Pcb where
  id : ℤ
  programCounter : ℤ
  tablaPaginas : ℤ
  cpuDispatchCond : DispatchCond
  cpuExecutedBurst : ℤ
  cpuEstimatedBurst : ℤ
  ioBurst : ℤ
  instructions : List Instruction
  deriving DecidableEq, Repr

/-- `t_dir_fisica`. -/
structure DirFisica where
  numPag : ℤ
  marco : ℤ
  desplazamiento : ℤ
  acierto : Bool
  deriving DecidableEq, Repr

/-- `dir_logica / tam_pagina`, a division of `uint32_t`. -/
def numPag (c : SetupMemoria) (dirLogica : ℤ) : ℤ := toInt (toU32 dirLogica / c.tamPagina : ℕ)

/-- `dir_logica - num_pag * tam_pagina`. -/
def desplazamiento (c : SetupMemoria) (dirLogica : ℤ) : ℤ :=
  toInt (dirLogica - numPag c dirLogica * c.tamPagina)

section Servidor

variable {σ : Type*} (srv : Servidor σ)

/-- `get_segundo_nivel`: the number of the second-level table, -1 after an
error, and the memory module. -/
def getSegundoNivel (d : Direccion) (s : σ) : ℤ × σ :=
  match srv (.buscarTablaDePaginas { d with tablaSegundoNivel := u32Max }) s with
  | (some (.numero .buscarTablaDePaginas n), s') => (toInt n, s')
  | (_, s') => (-1, s')

/-- `get_frame`. -/
def getFrame (d : Direccion) (s : σ) : ℤ × σ :=
  match srv (.buscarMarco d) s with
  | (some (.numero .buscarMarco n), s') => (toInt n, s')
  | (_, s') => (-1, s')

/-- `direccionFisica`. -/
def direccionFisica (m : Mmu) (s : σ) (pcb : Pcb) (dirLogica : ℤ) : DirFisica × Mmu × σ :=
  let pagina := numPag m.configMemoria dirLogica
  let d := desplazamiento m.configMemoria dirLogica
  match buscarMarco m.tlb pagina with
  | (marco, tlb) =>
    if 0 ≤ marco then (⟨pagina, marco, d, true⟩, { m with tlb := tlb }, s)
    else
      let direccion : Direccion := ⟨toU32 pcb.id, toU32 pcb.tablaPaginas, u32Max, toU32 pagina⟩
      match getSegundoNivel srv direccion s with
      | (segundo, s1) =>
        if segundo < 0 then (⟨pagina, marco, d, false⟩, { m with tlb := tlb }, s1)
        else match getFrame srv { direccion with tablaSegundoNivel := toU32 segundo } s1 with
          | (marco', s2) =>
            if 0 ≤ marco' then (⟨pagina, marco', d, true⟩,
              { m with tlb := reemplazarEntrada tlb ⟨pagina, marco'⟩ }, s2)
            else (⟨pagina, marco', d, false⟩, { m with tlb := tlb }, s2)

end Servidor

section Traduccion

variable {σ : Type*}

/-- What is asked of the memory module after a miss. -/
def direccionDe (m : Mmu) (pcb : Pcb) (dirLogica : ℤ) : Direccion :=
  ⟨toU32 pcb.id, toU32 pcb.tablaPaginas, u32Max, toU32 (numPag m.configMemoria dirLogica)⟩

/-- The three ends of a translation: a hit, an error of the memory module, and its frame. -/
inductive Traduce (srv : Servidor σ) (m : Mmu) (s : σ) (pcb : Pcb) (dirLogica : ℤ) :
    DirFisica × Mmu × σ → Prop
  | tlb (h : 0 ≤ (buscarMarco m.tlb (numPag m.configMemoria dirLogica)).1) : Traduce srv m s pcb dirLogica
      (⟨numPag m.configMemoria dirLogica, (buscarMarco m.tlb (numPag m.configMemoria dirLogica)).1,
        desplazamiento m.configMemoria dirLogica, true⟩,
      { m with tlb := (buscarMarco m.tlb (numPag m.configMemoria dirLogica)).2 }, s)
  | error (marco : ℤ) (s' : σ) (h : (buscarMarco m.tlb (numPag m.configMemoria dirLogica)).1 < 0) :
      Traduce srv m s pcb dirLogica (⟨numPag m.configMemoria dirLogica, marco,
        desplazamiento m.configMemoria dirLogica, false⟩,
      { m with tlb := (buscarMarco m.tlb (numPag m.configMemoria dirLogica)).2 }, s')
  | memoria (segundo marco : ℤ) (s₁ s₂ : σ)
      (h : (buscarMarco m.tlb (numPag m.configMemoria dirLogica)).1 < 0)
      (h₁ : getSegundoNivel srv (direccionDe m pcb dirLogica) s = (segundo, s₁)) (hs : 0 ≤ segundo)
      (h₂ : getFrame srv { direccionDe m pcb dirLogica with tablaSegundoNivel := toU32 segundo } s₁ = (marco, s₂))
      (hm : 0 ≤ marco) : Traduce srv m s pcb dirLogica
      (⟨numPag m.configMemoria dirLogica, marco, desplazamiento m.configMemoria dirLogica, true⟩,
      { m with
        tlb := reemplazarEntrada (buscarMarco m.tlb (numPag m.configMemoria dirLogica)).2
          ⟨numPag m.configMemoria dirLogica, marco⟩ }, s₂)

/-- A hit asks for nothing. -/
theorem direccionFisica_hit (srv : Servidor σ) (m : Mmu) (s : σ) (pcb : Pcb) (dirLogica : ℤ)
    (hm : 0 ≤ (buscarMarco m.tlb (numPag m.configMemoria dirLogica)).1) :
    direccionFisica srv m s pcb dirLogica =
      (⟨numPag m.configMemoria dirLogica, (buscarMarco m.tlb (numPag m.configMemoria dirLogica)).1,
        desplazamiento m.configMemoria dirLogica, true⟩,
      { m with tlb := (buscarMarco m.tlb (numPag m.configMemoria dirLogica)).2 }, s) := if_pos hm

/-- After a miss, what the memory module answers to the two requests. -/
theorem direccionFisica_miss (srv : Servidor σ) (m : Mmu) (s : σ) (pcb : Pcb) (dirLogica : ℤ)
    (hm : ¬ 0 ≤ (buscarMarco m.tlb (numPag m.configMemoria dirLogica)).1) :
    direccionFisica srv m s pcb dirLogica =
      let r := getSegundoNivel srv (direccionDe m pcb dirLogica) s
      let f := getFrame srv { direccionDe m pcb dirLogica with tablaSegundoNivel := toU32 r.1 } r.2
      let b := buscarMarco m.tlb (numPag m.configMemoria dirLogica)
      if r.1 < 0 then (⟨numPag m.configMemoria dirLogica, b.1, desplazamiento m.configMemoria dirLogica, false⟩,
        { m with tlb := b.2 }, r.2)
      else if 0 ≤ f.1 then
        (⟨numPag m.configMemoria dirLogica, f.1, desplazamiento m.configMemoria dirLogica, true⟩,
          { m with tlb := reemplazarEntrada b.2 ⟨numPag m.configMemoria dirLogica, f.1⟩ }, f.2)
      else (⟨numPag m.configMemoria dirLogica, f.1, desplazamiento m.configMemoria dirLogica, false⟩,
        { m with tlb := b.2 }, f.2) := if_neg hm

theorem direccionFisica_traduce (srv : Servidor σ) (m : Mmu) (s : σ) (pcb : Pcb) (dirLogica : ℤ) :
    Traduce srv m s pcb dirLogica (direccionFisica srv m s pcb dirLogica) := by
  by_cases hm : 0 ≤ (buscarMarco m.tlb (numPag m.configMemoria dirLogica)).1
  · rw [direccionFisica_hit srv m s pcb dirLogica hm]
    exact .tlb hm
  have hm' := Int.not_le.mp hm
  rcases h₁ : getSegundoNivel srv (direccionDe m pcb dirLogica) s with ⟨segundo, s₁⟩
  rcases h₂ : getFrame srv { direccionDe m pcb dirLogica with tablaSegundoNivel := toU32 segundo } s₁ with
    ⟨marco, s₂⟩
  rw [direccionFisica_miss srv m s pcb dirLogica hm]
  dsimp only
  rw [h₁]
  dsimp only
  rw [h₂]
  dsimp only
  split_ifs with hs hf
  · exact .error _ _ hm'
  · exact .memoria segundo marco s₁ s₂ hm' h₁ (Int.not_lt.mp hs) h₂ hf
  · exact .error _ _ hm'

end Traduccion

end Cpu
end Kiss
