/-
# What the module is asked

`handle_cpu` and `handle_kernel` of `memoriaswap/src/memoriaswap.c`, one message at a time
under `sem_request`. The CPU names a frame, and the module takes from the registry whose
page is there: the message is a request on that page, whoever sent it.

Key definitions: `Mensaje`, `Mensaje.operacion`, `atender`.
-/
import Kiss.Memoria.Corridas

namespace Kiss
namespace Memoria

variable {c : ConfigMemoria} {s : MemoriaGlobal}

/-- The messages of the CPU and of the kernel, with what the module reads of them. -/
inductive Mensaje
  | escribirMarco (numeroMarco desplazamiento dato : ℕ)
  | leerMarco (numeroMarco desplazamiento : ℕ)
  | buscarTablaDePaginas (pagina : ℕ)
  | buscarMarco (tablaPrimerNivel pagina : ℕ)
  | nuevoProceso (processSize pcbId : ℕ)
  | suspenderProceso (numeroTablaTablas : ℕ)
  | finalizarProceso (numeroTablaTablas : ℕ)
  deriving DecidableEq, Repr

/-- The function that the handler calls. The number of the second-level table is computed
without one. -/
def Mensaje.operacion (c : ConfigMemoria) (s : MemoriaGlobal) : Mensaje → Option Operacion
  | .escribirMarco marco d dato =>
    if marco < c.cantidad then
      let registro := s.registroEspacioUsuario marco
      some (.escribir registro.tablaTablas registro.pagina d dato)
    else none
  | .leerMarco marco d =>
    if marco < c.cantidad then
      let registro := s.registroEspacioUsuario marco
      some (.leer registro.tablaTablas registro.pagina d)
    else none
  | .buscarTablaDePaginas _ => none
  | .buscarMarco t p => some (.buscarMarco t p)
  | .nuevoProceso tam pid => some (.iniciar tam pid)
  | .suspenderProceso t => some (.suspender t)
  | .finalizarProceso t => some (.finalizar t)

/-- The value of the reply, and the state afterwards. -/
def atender (c : ConfigMemoria) (s : MemoriaGlobal) : Mensaje → Option (ℕ × MemoriaGlobal)
  | .buscarTablaDePaginas p => some (numeroDeTabla c p, s)
  | m => (m.operacion c s).bind (ejecutar c s)

/-- A message that is a request. -/
theorem atender_operacion {m : Mensaje} {o : Operacion} (h : m.operacion c s = some o) :
    atender c s m = ejecutar c s o := by
  cases m with
  | buscarTablaDePaginas p => cases h
  | _ => exact congrArg (·.bind (ejecutar c s)) h

end Memoria
end Kiss
