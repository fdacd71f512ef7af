/-
# The tables of the memory module

`memoriaswap/src/tablas.c`: the page tables of the processes, the frames of the user
space and the swap files. Every function takes the state and gives the one it leaves;
`none` is where the program stops or reads what nobody wrote: a null pointer, an access
outside the user space or the registry of frames, a short read, `exit(1)`. A pointer to
a page is the number of its second-level table and its place in it.

The files of `path_swap` are named after the process they belong to, and the directory
can be written. The memory that `malloc` gives holds anything.

Key definitions: `MemoriaGlobal`, `reemplazarPaginaDeSwapAMemoria`, `escribirEnPagina`,
`leerEnPagina`, `suspenderProceso`, `finalizarProceso`, `iniciarNuevoProceso`.
-/
import Mathlib.Logic.Function.Basic
import Kiss.Structs
import Kiss.Memoria.Reloj
import Kiss.Memoria.Copia
import Kiss.Memoria.Flotante

namespace Kiss
namespace Memoria

open Reloj (avanzar)

/-! ### Configuration and state -/

/-- `algoritmo_reemplazo`; with any other name a replacement ends the module. -/
inductive AlgoritmoReemplazo
  | clock | clockM | otro
  deriving DecidableEq, Repr

/-- `t_config_memoria`. The module divides by the size of a page when it starts. -/
structure ConfigMemoria where
  tamMemoria : ℕ
  tamPagina : ℕ
  entradasPorTabla : ℕ
  marcosPorProceso : ℕ
  algoritmoReemplazo : AlgoritmoReemplazo
  tamMemoria_lt : tamMemoria < 2 ^ 32
  tamPagina_lt : tamPagina < 2 ^ 32
  entradasPorTabla_lt : entradasPorTabla < 2 ^ 32
  marcosPorProceso_lt : marcosPorProceso < 2 ^ 32
  tamPagina_pos : 0 < tamPagina

/-- The frames of the user space. -/
def ConfigMemoria.cantidad (c : ConfigMemoria) : ℕ := c.tamMemoria / c.tamPagina

/-- `t_pagina`. -/
structure Pagina where
  numeroMarco : ℕ := 0
  modificado : Bool := false
  uso : Bool := false
  presencia : Bool := false
  deriving DecidableEq, Repr

/-- `t_registros_asignada`. -/
structure RegistroAsignado where
  numeroPagina : ℕ
  paginaAsignada : ℕ × ℕ
  deriving DecidableEq, Repr

/-- `t_tabla_primer_nivel`. -/
structure TablaPrimerNivel where
  tablasSegundoNivel : List ℕ
  paginasAsignadas : List RegistroAsignado := []
  punteroMarcos : ℕ := 0
  pcbId : ℕ
  deriving DecidableEq, Repr

/-- `registro_EU`. -/
structure RegistroEU where
  asignado : Bool := false
  tablaTablas : ℕ := 0
  pagina : ℕ := 0
  deriving DecidableEq, Repr

/-- A file: its size and its bytes. -/
structure Archivo where
  size : ℕ
  bytes : ℕ → UInt8

/-- The globals of the module and the files in `path_swap`, by process. -/
structure MemoriaGlobal where
  listaTablasDePaginas : List (List Pagina)
  listaTablasDeTablas : List TablaPrimerNivel
  registroEspacioUsuario : ℕ → RegistroEU
  espacioUsuario : ℕ → UInt8
  swap : ℕ → Option Archivo

/-- `memoria_iniciar` and `configurar_memoria`: no table and no frame assigned. -/
structure Inicial (c : ConfigMemoria) (s : MemoriaGlobal) : Prop where
  paginas : s.listaTablasDePaginas = []
  tablas : s.listaTablasDeTablas = []
  libre : ∀ i < c.cantidad, (s.registroEspacioUsuario i).asignado = false

/-! ### Access to the state -/

/-- The page a pointer points to. -/
def paginaEn (l : List (List Pagina)) (q : ℕ × ℕ) : Option Pagina := l[q.1]?.bind (·[q.2]?)

/-- An assignment to the fields of a page. -/
def modificarPagina (l : List (List Pagina)) (q : ℕ × ℕ) (f : Pagina → Pagina) : List (List Pagina) :=
  l.modify q.1 fun t => t.modify q.2 f

namespace MemoriaGlobal

def tabla (s : MemoriaGlobal) (t : ℕ) : Option TablaPrimerNivel := s.listaTablasDeTablas[t]?

def pagina (s : MemoriaGlobal) (q : ℕ × ℕ) : Option Pagina := paginaEn s.listaTablasDePaginas q

def conPagina (s : MemoriaGlobal) (q : ℕ × ℕ) (f : Pagina → Pagina) : MemoriaGlobal :=
  { s with listaTablasDePaginas := modificarPagina s.listaTablasDePaginas q f }

def conTabla (s : MemoriaGlobal) (t : ℕ) (f : TablaPrimerNivel → TablaPrimerNivel) : MemoriaGlobal :=
  { s with listaTablasDeTablas := s.listaTablasDeTablas.modify t f }

def conPaginas (s : MemoriaGlobal) (l : List (List Pagina)) : MemoriaGlobal :=
  { s with listaTablasDePaginas := l }

def conEspacio (s : MemoriaGlobal) (m : ℕ → UInt8) : MemoriaGlobal := { s with espacioUsuario := m }

def conSwap (s : MemoriaGlobal) (pid : ℕ) (a : Option Archivo) : MemoriaGlobal :=
  { s with swap := Function.update s.swap pid a }

def conRegistro (s : MemoriaGlobal) (i : ℕ) (f : RegistroEU → RegistroEU) : MemoriaGlobal :=
  { s with registroEspacioUsuario :=
      Function.update s.registroEspacioUsuario i (f (s.registroEspacioUsuario i)) }

end MemoriaGlobal

section Tablas

variable (c : ConfigMemoria)

/-- `numero_de_tabla`. -/
def numeroDeTabla (numero : ℕ) : ℕ := numero / c.entradasPorTabla

/-- `numero_de_pagina`. -/
def numeroDePagina (numero : ℕ) : ℕ := numero % c.entradasPorTabla

/-! ### Frames -/

/-- `buscar_marco_libre`. -/
def buscarMarcoLibre (s : MemoriaGlobal) : ℕ × MemoriaGlobal :=
  match (List.range c.cantidad).find? fun i => !(s.registroEspacioUsuario i).asignado with
  | some i => (i, s.conRegistro i fun r => { r with asignado := true })
  | none => (u32Max, s)

/-- Where a frame starts, in a `uint32_t`. -/
def inicioMarco (marco : ℕ) : ℕ := toU32 (marco * c.tamPagina : ℕ)

/-- `escribir_marco`. -/
def escribirMarco (s : MemoriaGlobal) (marco desplazamiento dato : ℕ) : Option MemoriaGlobal :=
  let offset := inicioMarco c marco + desplazamiento
  if offset + 4 ≤ c.tamMemoria then
    some (s.conEspacio (Copia.copiar s.espacioUsuario offset 4 (Copia.palabra dato)))
  else none

/-- `leer_marco`. -/
def leerMarco (s : MemoriaGlobal) (marco desplazamiento : ℕ) : Option ℕ :=
  let offset := inicioMarco c marco + desplazamiento
  if offset + 4 ≤ c.tamMemoria then
    some (Copia.valor (Copia.leer s.espacioUsuario offset 4))
  else none

/-- `escribir_marco_completo`. -/
def escribirMarcoCompleto (s : MemoriaGlobal) (marco : ℕ) (dato : ℕ → UInt8) : Option MemoriaGlobal :=
  if inicioMarco c marco + c.tamPagina ≤ c.tamMemoria then
    some (s.conEspacio (Copia.copiar s.espacioUsuario (inicioMarco c marco) c.tamPagina dato))
  else none

/-- `leer_marco_completo`. -/
def leerMarcoCompleto (s : MemoriaGlobal) (marco : ℕ) : Option (ℕ → UInt8) :=
  if inicioMarco c marco + c.tamPagina ≤ c.tamMemoria then
    some (Copia.leer s.espacioUsuario (inicioMarco c marco) c.tamPagina)
  else none

/-! ### Swap files -/

/-- Where a page is in its file, in a `uint32_t`. -/
def posicionSwap (numeroTablaPaginas numeroPagina : ℕ) : ℕ :=
  toU32 ((numeroTablaPaginas * c.entradasPorTabla + numeroPagina) * c.tamPagina : ℕ)

/-- `fread` of a page at `pos`. A page past the end of the file has no answer here, so the runs of
the model bring none in: `leer_pagina_swap` ignores what `fread` returns and goes on with memory that
nobody has written. -/
def leerArchivo (a : Archivo) (pos : ℕ) : Option (ℕ → UInt8) :=
  if pos + c.tamPagina ≤ a.size then some (Copia.leer a.bytes pos c.tamPagina) else none

/-- `fwrite` of a page at `pos`; a gap after the old end reads 0. -/
def escribirArchivo (a : Archivo) (pos : ℕ) (dato : ℕ → UInt8) : Archivo where
  size := max a.size (pos + c.tamPagina)
  bytes := Copia.copiar (fun x => if x < a.size then a.bytes x else 0) pos c.tamPagina dato

/-- `crear_archivo_swap`: `truncate` to a size that may come out negative, which fails. -/
def crearArchivoSwap (s : MemoriaGlobal) (numeroTablaTablas tamProceso : ℕ) : Option MemoriaGlobal := do
  let tablaTablas ← s.tabla numeroTablaTablas
  let bloques := Flotante.ceilDiv 53 tamProceso c.tamPagina
  if bloques < 2 ^ 31 then
    let fileSize := toInt (bloques * c.tamPagina : ℕ)
    some (s.conSwap tablaTablas.pcbId (some ⟨fileSize.toNat, fun _ => 0⟩))
  else none

/-- `leer_pagina_swap`. -/
def leerPaginaSwap (s : MemoriaGlobal) (numeroTablaTablas numeroTablaPaginas numeroPagina : ℕ) :
    Option (ℕ → UInt8) := do
  let tablaTablas ← s.tabla numeroTablaTablas
  let a ← s.swap tablaTablas.pcbId
  leerArchivo c a (posicionSwap c numeroTablaPaginas numeroPagina)

/-- `escribir_pagina_swap`. -/
def escribirPaginaSwap (s : MemoriaGlobal) (numeroTablaTablas numeroTablaPaginas numeroPagina : ℕ)
    (dato : ℕ → UInt8) : Option MemoriaGlobal := do
  let tablaTablas ← s.tabla numeroTablaTablas
  let a ← s.swap tablaTablas.pcbId
  let pos := posicionSwap c numeroTablaPaginas numeroPagina
  some (s.conSwap tablaTablas.pcbId (some (escribirArchivo c a pos dato)))

/-- `eliminar_archivo_swap`. -/
def eliminarArchivoSwap (s : MemoriaGlobal) (numeroTablaTablas : ℕ) : Option MemoriaGlobal := do
  let tablaTablas ← s.tabla numeroTablaTablas
  some (s.conSwap tablaTablas.pcbId none)

/-! ### Creation of tables -/

/-- The turns of a `do … while (--n > 0)` over a `uint32_t`. -/
def vueltas (n : ℕ) : ℕ := if n = 0 then 2 ^ 32 else n

/-- `crear_tabla_paginas`: the number of the new table goes to the list. -/
def crearTablaPaginas (x : List ℕ × List (List Pagina)) (cantidadPaginas : ℕ) :
    List ℕ × List (List Pagina) :=
  (x.1 ++ [toU32 (x.2.length : ℕ)], x.2 ++ [List.replicate (vueltas cantidadPaginas) { numeroMarco := 0 }])

/-- `(uint32_t) ceil((float) a / b)`, undefined where the number does not fit. -/
def ceilFloat (a b : ℕ) : Option ℕ :=
  if 0 < b ∧ Flotante.ceilDiv 24 a b < 2 ^ 32 then some (Flotante.ceilDiv 24 a b) else none

/-- The pages of every second-level table that the loop creates. -/
def paginasPorTabla (cantidadDePaginas cantidadDeTablasDePagina : ℕ) : List ℕ :=
  if cantidadDeTablasDePagina < 1 then
    c.entradasPorTabla :: List.replicate (vueltas cantidadDeTablasDePagina - 1) cantidadDePaginas
  else List.replicate cantidadDeTablasDePagina cantidadDePaginas

/-- `crear_tabla_primer_nivel`: the number of the table, `-1` when the process is too big. -/
def crearTablaPrimerNivel (s : MemoriaGlobal) (tamProceso idProceso : ℕ) :
    Option (ℕ × MemoriaGlobal) :=
  let tamMaximo := toInt (c.tamPagina * c.entradasPorTabla * c.entradasPorTabla : ℕ)
  if toU32 tamMaximo < tamProceso then some (u32Max, s)
  else do
    let cantidadDePaginas ← ceilFloat tamProceso c.tamPagina
    let cantidadDeTablasDePagina ← ceilFloat cantidadDePaginas c.entradasPorTabla
    let r := (paginasPorTabla c cantidadDePaginas cantidadDeTablasDePagina).foldl crearTablaPaginas
      ([], s.listaTablasDePaginas)
    some (toU32 (s.listaTablasDeTablas.length : ℕ), { s with
      listaTablasDePaginas := r.2
      listaTablasDeTablas := s.listaTablasDeTablas ++
        [{ tablasSegundoNivel := r.1, pcbId := idProceso }] })

/-- `iniciar_nuevo_proceso`. -/
def iniciarNuevoProceso (s : MemoriaGlobal) (tamProceso idProceso : ℕ) : Option (ℕ × MemoriaGlobal) := do
  let (numeroProceso, s) ← crearTablaPrimerNivel c s tamProceso idProceso
  let s ← crearArchivoSwap c s numeroProceso tamProceso
  some (numeroProceso, s)

/-! ### Replacement -/

/-- `buscar_pagina_en_tablas`: a pointer, that may be null. -/
def buscarPaginaEnTablas (s : MemoriaGlobal) (numeroTablaTablas numeroPagina : ℕ) :
    Option (Option (ℕ × ℕ)) := do
  let tablaDeTablas ← s.tabla numeroTablaTablas
  let numeroTablaPaginas ← tablaDeTablas.tablasSegundoNivel[numeroDeTabla c numeroPagina]?
  let tablaDePaginas ← s.listaTablasDePaginas[numeroTablaPaginas]?
  if numeroDePagina c numeroPagina < tablaDePaginas.length then
    some (some (numeroTablaPaginas, numeroDePagina c numeroPagina))
  else some none

/-- The bits that the algorithms see: those of the pages assigned to the process. -/
def paginasDe (asignadas : List RegistroAsignado) : Reloj.Paginas (List (List Pagina)) where
  leer l i := asignadas[i]?.bind fun r => (paginaEn l r.paginaAsignada).map fun p => (p.uso, p.modificado)
  limpiar l i := match asignadas[i]? with
    | some r => modificarPagina l r.paginaAsignada fun p => { p with uso := false }
    | none => l

/-- `seleccionar_pagina_victima_clock`: the victim is where the hand stops. -/
def seleccionarPaginaVictimaClock (s : MemoriaGlobal) (numeroTablaTablas : ℕ) : Option MemoriaGlobal := do
  let tablaTablas ← s.tabla numeroTablaTablas
  let (l, puntero) ← Reloj.clock (paginasDe tablaTablas.paginasAsignadas) c.marcosPorProceso
    (c.marcosPorProceso + 1) s.listaTablasDePaginas tablaTablas.punteroMarcos
  some ((s.conPaginas l).conTabla numeroTablaTablas fun tt => { tt with punteroMarcos := puntero })

/-- `seleccionar_pagina_victima_clock_M`. -/
def seleccionarPaginaVictimaClockM (s : MemoriaGlobal) (numeroTablaTablas : ℕ) : Option MemoriaGlobal := do
  let tablaTablas ← s.tabla numeroTablaTablas
  let (l, puntero) ← Reloj.clockM (paginasDe tablaTablas.paginasAsignadas) c.marcosPorProceso 2
    s.listaTablasDePaginas tablaTablas.punteroMarcos
  some ((s.conPaginas l).conTabla numeroTablaTablas fun tt => { tt with punteroMarcos := puntero })

/-- The victim by the configured algorithm. -/
def seleccionarPaginaVictima (s : MemoriaGlobal) (numeroTablaTablas : ℕ) : Option MemoriaGlobal :=
  match c.algoritmoReemplazo with
  | .clock => seleccionarPaginaVictimaClock c s numeroTablaTablas
  | .clockM => seleccionarPaginaVictimaClockM c s numeroTablaTablas
  | .otro => none

/-- An assignment to a record of the registry of frames. -/
def escribirRegistro (s : MemoriaGlobal) (marco : ℕ) (f : RegistroEU → RegistroEU) :
    Option MemoriaGlobal :=
  if marco < c.cantidad then some (s.conRegistro marco f) else none

/-- The victim's frame goes to swap when it was modified. The number of the page is not
reduced to its place in the table. -/
def guardarVictima (s : MemoriaGlobal) (numeroTablaTablas : ℕ) (victima : RegistroAsignado)
    (v : Pagina) : Option MemoriaGlobal :=
  if v.modificado then do
    let paginaDeMarco ← leerMarcoCompleto c s v.numeroMarco
    let s ← escribirPaginaSwap c s numeroTablaTablas (numeroDeTabla c victima.numeroPagina)
      victima.numeroPagina paginaDeMarco
    some (s.conPagina victima.paginaAsignada fun v => { v with modificado := false })
  else some s

/-- `reemplazar_pagina_de_swap_a_memoria`. -/
def reemplazarPaginaDeSwapAMemoria (s : MemoriaGlobal) (numeroTablaTablas pagina : ℕ) :
    Option MemoriaGlobal := do
  let s ← seleccionarPaginaVictima c s numeroTablaTablas
  let tablaTablas ← s.tabla numeroTablaTablas
  let victima ← tablaTablas.paginasAsignadas[tablaTablas.punteroMarcos]?
  let v ← s.pagina victima.paginaAsignada
  let s ← guardarVictima c s numeroTablaTablas victima v
  let s := s.conPagina victima.paginaAsignada fun v => { v with presencia := false }
  let paginaDeSwap ← leerPaginaSwap c s numeroTablaTablas (numeroDeTabla c pagina)
    (numeroDePagina c pagina)
  let s ← escribirMarcoCompleto c s v.numeroMarco paginaDeSwap
  let q ← (← buscarPaginaEnTablas c s numeroTablaTablas pagina)
  let s := s.conTabla numeroTablaTablas fun tt => { tt with
    paginasAsignadas := tt.paginasAsignadas.set tablaTablas.punteroMarcos ⟨pagina, q⟩
    punteroMarcos := avanzar c.marcosPorProceso tt.punteroMarcos }
  let s := s.conPagina q fun p => { p with presencia := true, uso := true, numeroMarco := v.numeroMarco }
  escribirRegistro c s v.numeroMarco fun r =>
    { r with pagina := pagina, tablaTablas := numeroTablaTablas }

/-- `asignar_marco_y_cargar_pagina_de_swap`. -/
def asignarMarcoYCargarPaginaDeSwap (s : MemoriaGlobal) (numeroTablaTablas pagina : ℕ) :
    Option MemoriaGlobal := do
  let (numeroDeMarco, s) := buscarMarcoLibre c s
  let q ← (← buscarPaginaEnTablas c s numeroTablaTablas pagina)
  let s := s.conPagina q fun p => { p with presencia := true, uso := true, numeroMarco := numeroDeMarco }
  let s ← escribirRegistro c s numeroDeMarco fun r =>
    { r with pagina := pagina, tablaTablas := numeroTablaTablas }
  let s := s.conTabla numeroTablaTablas fun tt => { tt with
    paginasAsignadas := tt.paginasAsignadas ++ [⟨pagina, q⟩]
    punteroMarcos := avanzar c.marcosPorProceso tt.punteroMarcos }
  let paginaDeSwap ← leerPaginaSwap c s numeroTablaTablas (numeroDeTabla c pagina)
    (numeroDePagina c pagina)
  escribirMarcoCompleto c s numeroDeMarco paginaDeSwap

/-- `cargar_pagina_de_swap_a_memoria`. -/
def cargarPaginaDeSwapAMemoria (s : MemoriaGlobal) (numeroTablaTablas pagina : ℕ) :
    Option MemoriaGlobal := do
  let tablaTablas ← s.tabla numeroTablaTablas
  if tablaTablas.paginasAsignadas.length < c.marcosPorProceso then
    asignarMarcoYCargarPaginaDeSwap c s numeroTablaTablas pagina
  else reemplazarPaginaDeSwapAMemoria c s numeroTablaTablas pagina

/-! ### Operations -/

/-- `escribir_en_pagina`: `EXIT_SUCCESS` or `EXIT_FAILURE`. -/
def escribirEnPagina (s : MemoriaGlobal) (numeroTablaTablas numeroPagina desplazamiento dato : ℕ) :
    Option (ℕ × MemoriaGlobal) := do
  let pagina ← buscarPaginaEnTablas c s numeroTablaTablas numeroPagina
  if desplazamiento < c.tamPagina then
    let q ← pagina
    let p ← s.pagina q
    if p.presencia then
      let s ← escribirMarco c s p.numeroMarco desplazamiento dato
      some (0, s.conPagina q fun p => { p with uso := true, modificado := true })
    else
      let s ← cargarPaginaDeSwapAMemoria c s numeroTablaTablas numeroPagina
      let p ← s.pagina q
      let s ← escribirMarco c s p.numeroMarco desplazamiento dato
      some (0, s.conPagina q fun p => { p with modificado := true })
  else some (1, s)

/-- `leer_en_pagina`. -/
def leerEnPagina (s : MemoriaGlobal) (numeroTablaTablas numeroPagina desplazamiento : ℕ) :
    Option (ℕ × MemoriaGlobal) := do
  let pagina ← buscarPaginaEnTablas c s numeroTablaTablas numeroPagina
  if c.tamPagina ≤ desplazamiento then some (u32Max, s)
  else
    let q ← pagina
    let p ← s.pagina q
    if p.presencia then
      let dato ← leerMarco c s p.numeroMarco desplazamiento
      some (dato, s.conPagina q fun p => { p with uso := true })
    else
      let s ← cargarPaginaDeSwapAMemoria c s numeroTablaTablas numeroPagina
      let p ← s.pagina q
      let dato ← leerMarco c s p.numeroMarco desplazamiento
      some (dato, s)

/-- `buscar_marco_de_pagina`. -/
def buscarMarcoDePagina (s : MemoriaGlobal) (numeroTablaTablas numeroPagina : ℕ) :
    Option (ℕ × MemoriaGlobal) := do
  let q ← (← buscarPaginaEnTablas c s numeroTablaTablas numeroPagina)
  let p ← s.pagina q
  let s ← if p.presencia then some s else cargarPaginaDeSwapAMemoria c s numeroTablaTablas numeroPagina
  let p ← s.pagina q
  some (p.numeroMarco, s)

/-- The loop of `suspender_proceso` over the pages assigned; every one goes to swap, and
its number is not reduced here either. -/
def suspenderPaginas (numeroTablaTablas : ℕ) : List RegistroAsignado → MemoriaGlobal → Option MemoriaGlobal
  | [], s => some s
  | registro :: l, s => do
    let s := s.conTabla numeroTablaTablas fun tt => { tt with paginasAsignadas := l }
    let p ← s.pagina registro.paginaAsignada
    let paginaDeMarco ← leerMarcoCompleto c s p.numeroMarco
    let s ← escribirPaginaSwap c s numeroTablaTablas (numeroDeTabla c registro.numeroPagina)
      registro.numeroPagina paginaDeMarco
    let s := s.conPagina registro.paginaAsignada fun p =>
      { p with presencia := false, uso := false, modificado := false }
    let s ← escribirRegistro c s p.numeroMarco fun r => { r with asignado := false }
    suspenderPaginas numeroTablaTablas l s

/-- `suspender_proceso`: the pointer is used before the test for null. -/
def suspenderProceso (s : MemoriaGlobal) (numeroTablaTablas : ℕ) : Option (Bool × MemoriaGlobal) := do
  let tablaTablas ← s.tabla numeroTablaTablas
  let s := s.conTabla numeroTablaTablas fun tt => { tt with punteroMarcos := 0 }
  let s ← suspenderPaginas c numeroTablaTablas tablaTablas.paginasAsignadas s
  some (true, s)

/-- The loop of `finalizar_proceso`. -/
def finalizarPaginas (numeroTablaTablas : ℕ) : List RegistroAsignado → MemoriaGlobal → Option MemoriaGlobal
  | [], s => some s
  | registro :: l, s => do
    let s := s.conTabla numeroTablaTablas fun tt => { tt with paginasAsignadas := l }
    let p ← s.pagina registro.paginaAsignada
    let s ← escribirRegistro c s p.numeroMarco fun r => { r with asignado := false }
    let s ← eliminarArchivoSwap s numeroTablaTablas
    finalizarPaginas numeroTablaTablas l s

/-- `finalizar_proceso`. -/
def finalizarProceso (s : MemoriaGlobal) (numeroTablaTablas : ℕ) : Option (Bool × MemoriaGlobal) :=
  match s.tabla numeroTablaTablas with
  | some tablaTablas => do
    let s ← finalizarPaginas c numeroTablaTablas tablaTablas.paginasAsignadas s
    some (true, s)
  | none => some (false, s)

end Tablas

end Memoria
end Kiss
