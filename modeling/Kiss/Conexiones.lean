/-
# The memory module and those who call it

The connections of the kernel and of the CPUs with the memory module: the handshake of each
(`memory_handshake` of `kernel/src/imemory.c`, `memoria_handshake` of `cpu/src/cpu.c`,
`server_handshake` of `memoriaswap/src/memoriaswap.c`), then the calls of `imemory.c`,
`mmu.c` and `cicloInstruccion.c` against `handle_cpu` and `handle_kernel`, over the bytes
that `send_message` writes and `recieve_message` reads. The mutex of a client allows one
call of it at a time, and `sem_request` one operation of the module. Nothing fails on these
sockets, and nobody else connects.

Key definitions: `Pedido`, `handleCpu`, `handleKernel`, `protocolo`, `interpretar`,
`ejecutarPedido`, `Permitido`, `Secuencial`.
Key theorems: `respond_ejecutar`, `reach_secuencial`, `reach_contestada`.
-/
import Kiss.Rpc
import Kiss.Cpu.CicloInstruccion
import Kiss.Cpu.Transparencia
import Kiss.Kernel.Imemory
import Kiss.Memoria.Servidor
import Kiss.Serializacion.Palabras

namespace Kiss
namespace Conexiones

open Bytes Serializacion Rpc
open Imemory (Request signal answer mcSignal mcNuevoProceso mcSuspenderProceso mcFinalizarProceso
  sgCodeNotExpected sgOperationSuccess sgOperationFailure)
open Memoria (ConfigMemoria MemoriaGlobal atender)
open Transparencia (memoriaSwap pedidoDe respuestaDe)

/-! ### Codes -/

/-- `MC_PROCESS_CODE`, `MC_MEMORY_SETUP`, `MC_ESCRIBIR_MARCO`, `MC_LEER_MARCO`,
`MC_BUSCAR_TABLA_DE_PAGINAS`, `MC_BUSCAR_MARCO`. -/
def mcProcessCode : ℕ := 903
def mcMemorySetup : ℕ := 905
def mcEscribirMarco : ℕ := 906
def mcLeerMarco : ℕ := 907
def mcBuscarTablaDePaginas : ℕ := 908
def mcBuscarMarco : ℕ := 909

/-- `SG_CONNECTION_ACCEPTED`. -/
def sgConnectionAccepted : ℕ := 800

/-! ### The calls -/

/-- Who connects to the memory module. -/
inductive Cliente
  | kernel | cpu
  deriving DecidableEq, Repr

def Cliente.code : Cliente → ℕ
  | kernel => ProcessCode.kernel.code
  | cpu => ProcessCode.cpu.code

/-- The calls of the CPU, with what each takes. -/
inductive Llamada
  | getSegundoNivel (direccion : Cpu.Direccion)
  | getFrame (direccion : Cpu.Direccion)
  | getValorMemoria (pcb : Cpu.Pcb) (dir : Cpu.DirFisica)
  | setValorMemoria (pcb : Cpu.Pcb) (dir : Cpu.DirFisica) (valor : ℤ)
  deriving DecidableEq, Repr

/-- The calls: the handshake, those of the CPU, and those of the kernel. -/
inductive Pedido
  | saludo (x : Cliente)
  | cpu (l : Llamada)
  | kernel (r : Request)
  deriving DecidableEq, Repr

/-- Whose requests they are. -/
def Pedido.de : Pedido → Option Cliente
  | saludo _ => none
  | cpu _ => some .cpu
  | kernel _ => some .kernel

/-- The request of a call. -/
def Llamada.pedido : Llamada → Cpu.Mensaje
  | getSegundoNivel d => .buscarTablaDePaginas { d with tablaSegundoNivel := u32Max }
  | getFrame d => .buscarMarco d
  | getValorMemoria pcb dir => .leerMarco ⟨toU32 pcb.id, toU32 dir.marco, toU32 dir.desplazamiento, 0⟩
  | setValorMemoria pcb dir valor =>
    .escribirMarco ⟨toU32 pcb.id, toU32 dir.marco, toU32 dir.desplazamiento, toU32 valor⟩

def headerCpu : Cpu.Mensaje → ℕ
  | .buscarTablaDePaginas _ => mcBuscarTablaDePaginas
  | .buscarMarco _ => mcBuscarMarco
  | .leerMarco _ => mcLeerMarco
  | .escribirMarco _ => mcEscribirMarco

def payloadCpu : Cpu.Mensaje → Buffer
  | .buscarTablaDePaginas d | .buscarMarco d => serializarDireccion d
  | .leerMarco o | .escribirMarco o => serializarOperacionEu o

theorem headerCpu_lt (m : Cpu.Mensaje) : headerCpu m < 2 ^ 32 := by
  cases m <;> simp [headerCpu, mcBuscarTablaDePaginas, mcBuscarMarco, mcLeerMarco, mcEscribirMarco]

/-- What the CPU sends. -/
def mensajeCpu (m : Cpu.Mensaje) : Mensaje where
  header := headerCpu m
  payload := (payloadCpu m).stream
  header_lt := headerCpu_lt m
  payload_lt := by
    cases m <;> simp [payloadCpu, serializarDireccion, serializarOperacionEu, length_serializarPalabras,
      palabrasDireccion, palabrasOperacion]

/-- What is sent. -/
def Pedido.mensaje : Pedido → Mensaje
  | saludo x => signal mcProcessCode x.code (by decide)
  | cpu l => mensajeCpu l.pedido
  | kernel r => r.mensaje

/-- The numbers that are sent. -/
def palabrasCpu : Cpu.Mensaje → List ℕ
  | .buscarTablaDePaginas d | .buscarMarco d => palabrasDireccion d
  | .leerMarco o | .escribirMarco o => palabrasOperacion o

def palabrasKernel : Request → List ℕ
  | .getEntryPageTable pcbId processSize => [pcbId, processSize]
  | .swappProcess tablaPaginas | .freeAllocatedMemory tablaPaginas => [tablaPaginas]

def Pedido.palabras : Pedido → List ℕ
  | saludo x => [x.code]
  | cpu l => palabrasCpu l.pedido
  | kernel r => palabrasKernel r

/-- What a call returns: the result of a handshake, with the sizes that the CPU is given, a
number, a value that may not be there, or whether a value was written. -/
inductive Resultado
  | rechazado
  | aceptado
  | setup (entradasPorTabla tamPagina : ℕ)
  | entero (n : ℤ)
  | valor (n : Option ℤ)
  | escrito (b : Bool)
  deriving DecidableEq, Repr

/-- The number under the header that is expected. -/
def numeroBajo (header : ℕ) (p : Package) : Option ℤ :=
  if p.header = header then (deserializeUint32t p.payload).map fun n : ℕ => toInt n else none

/-- The signal of a package. -/
def esSignal (g : ℕ) (p : Package) : Bool := p.header = mcSignal && deserializeUint32t p.payload = some g

/-- The end of the CPU's calls. -/
def Llamada.interpretar (l : Llamada) (p : Package) : Resultado :=
  match l with
  | getSegundoNivel _ => .entero ((numeroBajo mcBuscarTablaDePaginas p).getD (-1))
  | getFrame _ => .entero ((numeroBajo mcBuscarMarco p).getD (-1))
  | getValorMemoria .. => .valor (numeroBajo mcLeerMarco p)
  | setValorMemoria .. => .escrito (esSignal sgOperationSuccess p)

/-- What the kernel's calls return where the answer is not the one they expect. -/
def fracaso : Request → ℤ
  | .getEntryPageTable .. => -1
  | .swappProcess _ | .freeAllocatedMemory _ => 1

/-- What a call does with its answer: `memory_handshake`, `memoria_handshake`, and the end of
the others. -/
def interpretar (q : Pedido) (p : Package) : Resultado :=
  match q with
  | .saludo .kernel =>
    if esSignal sgConnectionAccepted p then .aceptado else .rechazado
  | .saludo .cpu =>
    if p.header = mcMemorySetup then match deserializarSetupMemoria p.payload with
      | some x => .setup x.1 x.2
      | none => .rechazado
    else .rechazado
  | .cpu l => l.interpretar p
  | .kernel r => .entero (if p.header = r.header then r.result p.payload.stream else fracaso r)

/-! ### The module -/

theorem mcSignal_lt : mcSignal < 2 ^ 32 := by decide

/-- What `cpu_handshake` sends. -/
def memorySetup (c : ConfigMemoria) : Mensaje where
  header := mcMemorySetup
  payload := (serializarSetupMemoria c.entradasPorTabla c.tamPagina).stream
  header_lt := by decide
  payload_lt := by simp [serializarSetupMemoria, length_serializarPalabras]

/-- `server_handshake` and `cpu_handshake`: the answer, and whose thread it is. -/
def serverHandshake (c : ConfigMemoria) (p : Package) : Option (Mensaje × Cliente) :=
  if p.header = mcProcessCode then match deserializeUint32t p.payload with
    | some code =>
      if code = ProcessCode.kernel.code then
        some (signal mcSignal sgConnectionAccepted mcSignal_lt, .kernel)
      else if code = ProcessCode.cpu.code then
        some (memorySetup c, .cpu)
      else none
    | none => none
  else none

/-- `handle_cpu`, one message: the answer, and the module; `none` where it does not come back. -/
def handleCpu (c : ConfigMemoria) (p : Package) (s : MemoriaGlobal) : Option (Mensaje × MemoriaGlobal) :=
  if p.header = mcEscribirMarco then do
    let operacion ← deserializarOperacionEU p.payload
    let x ← atender c s (.escribirMarco operacion.numeroMarco operacion.desplazamiento operacion.dato)
    some (signal mcSignal (if x.1 = 0 then sgOperationSuccess else sgOperationFailure) mcSignal_lt, x.2)
  else if p.header = mcLeerMarco then do
    let operacion ← deserializarOperacionEU p.payload
    let x ← atender c s (.leerMarco operacion.numeroMarco operacion.desplazamiento)
    some (signal mcLeerMarco x.1 (by decide), x.2)
  else if p.header = mcBuscarTablaDePaginas then do
    let direccion ← deserializarDireccion p.payload
    let x ← atender c s (.buscarTablaDePaginas direccion.pagina)
    some (signal mcBuscarTablaDePaginas x.1 (by decide), x.2)
  else if p.header = mcBuscarMarco then do
    let direccion ← deserializarDireccion p.payload
    let x ← atender c s (.buscarMarco direccion.tablaPrimerNivel direccion.pagina)
    some (signal mcBuscarMarco x.1 (by decide), x.2)
  else some (signal mcSignal sgCodeNotExpected mcSignal_lt, s)

/-- `handle_kernel`, one message. -/
def handleKernel (c : ConfigMemoria) (p : Package) (s : MemoriaGlobal) : Option (Mensaje × MemoriaGlobal) :=
  if p.header = mcNuevoProceso then do
    let request ← deserializarPageEntryRequest p.payload
    let x ← atender c s (.nuevoProceso request.2 request.1)
    some (answer mcNuevoProceso x.1, x.2)
  else if p.header = mcSuspenderProceso then do
    let numeroTablaTablas ← deserializeUint32t p.payload
    let x ← atender c s (.suspenderProceso numeroTablaTablas)
    some (answer mcSuspenderProceso x.1, x.2)
  else if p.header = mcFinalizarProceso then do
    let numeroTablaTablas ← deserializeUint32t p.payload
    let x ← atender c s (.finalizarProceso numeroTablaTablas)
    some (answer mcFinalizarProceso x.1, x.2)
  else some (answer p.header 0, s)

/-! ### The bytes -/

/-- All that `recieve_message` asks for has arrived. -/
def llego (l : List UInt8) : Bool :=
  decide (8 ≤ l.length) && decide (8 + value ((l.drop 4).take 4) ≤ l.length)

/-- `recieve_message`, which waits until all has arrived. -/
def leerMensaje (l : List UInt8) : Option (Package × List UInt8) :=
  if llego l then some ((recieveMessage 0 l).1, (recieveMessage 0 l).2.socket) else none

theorem take_size (m : Mensaje) {l : List UInt8} {k : ℕ} (hl : l = (m.bytes).take k) (hk : 8 ≤ l.length) :
    value ((l.drop 4).take 4) = m.payload.length := by
  have h1 : 8 ≤ k := by
    rw [hl, List.length_take] at hk
    omega
  have h2 : (ofNat 4 m.header ++ ofNat 4 m.payload.length).length = 8 := by simp
  have h3 : l = ofNat 4 m.header ++ (ofNat 4 m.payload.length ++ m.payload.take (k - 8)) := by
    rw [hl, m.bytes_eq, ← List.append_assoc, List.take_append, h2, List.take_of_length_le (by omega),
      List.append_assoc]
  have h4 := m.payload_lt
  rw [h3, List.drop_left' (length_ofNat ..), List.take_left' (length_ofNat ..), value_ofNat]
  exact Nat.mod_eq_of_lt (by omega)

/-- The messages of `send_message`. -/
def mensajes : Framing UInt8 Mensaje Package where
  write := Mensaje.bytes
  read := leerMensaje
  package := Mensaje.package
  read_nil := rfl
  read_write m l := by
    have h1 := m.length_bytes
    have h2 : (m.bytes ++ l).take 8 = m.bytes.take 8 := List.take_append_of_le_length (by omega)
    have h3 : ((m.bytes ++ l).drop 4).take 4 = ((m.bytes.take 8).drop 4).take 4 := by
      rw [← h2, List.drop_take, List.take_take, Nat.min_self]
    have h4 := take_size m (k := 8) rfl (by rw [List.length_take]; omega)
    have h5 : llego (m.bytes ++ l) = true := by
      rw [llego, h3, h4, List.length_append]
      simp only [Bool.and_eq_true, decide_eq_true_eq]
      omega
    obtain ⟨h6, -, h7⟩ := @recieve_entero 0 l m
    rw [leerMensaje, if_pos h5, h6, h7]
  read_part m l hp hne := by
    obtain ⟨k, rfl⟩ : ∃ k, l = m.bytes.take k := ⟨l.length, List.prefix_iff_eq_take.mp hp⟩
    have h1 := m.length_bytes
    have hk : k < m.bytes.length := by
      by_contra hge
      exact hne (List.take_of_length_le (by omega))
    have hlen : (m.bytes.take k).length = k := by
      rw [List.length_take]
      omega
    have h2 : llego (m.bytes.take k) ≠ true := by
      intro h
      rw [llego, Bool.and_eq_true, decide_eq_true_eq, decide_eq_true_eq] at h
      rw [take_size m rfl h.1, hlen] at h
      omega
    rw [leerMensaje, if_neg h2]

/-- The threads of the module, with what each knows of its client. -/
def protocolo (c : ConfigMemoria) :
    Protocol UInt8 Pedido Package Mensaje Package (Option Cliente) MemoriaGlobal where
  up := mensajes.comap Pedido.mensaje
  down := mensajes
  greet
    | none, p => (serverHandshake c p).map fun x => (x.1, some x.2)
    | some _, _ => none
  serve
    | some .cpu, p, s => handleCpu c p s
    | some .kernel, p, s => handleKernel c p s
    | none, _, _ => none

/-! ### One call at a time -/

/-- A call of the CPU. -/
def Llamada.hacer {σ : Type*} (srv : Cpu.Servidor σ) (s : σ) : Llamada → Resultado × σ
  | getSegundoNivel d => match Cpu.getSegundoNivel srv d s with
    | (n, s') => (.entero n, s')
  | getFrame d => match Cpu.getFrame srv d s with
    | (n, s') => (.entero n, s')
  | getValorMemoria pcb dir => match Cpu.getValorMemoria srv s pcb dir with
    | (n, s') => (.valor n, s')
  | setValorMemoria pcb dir valor => match Cpu.setValorMemoria srv s pcb dir valor with
    | (b, s') => (.escrito b, s')

/-- What a call of the kernel asks for. -/
def pedidoKernel : Request → Memoria.Mensaje
  | .getEntryPageTable pcbId processSize => .nuevoProceso processSize pcbId
  | .swappProcess tablaPaginas => .suspenderProceso tablaPaginas
  | .freeAllocatedMemory tablaPaginas => .finalizarProceso tablaPaginas

/-- What it returns where the module answers `n`. -/
def resultadoKernel (n : ℕ) : Request → ℤ
  | .getEntryPageTable .. => toInt n
  | .swappProcess _ | .freeAllocatedMemory _ => if n ≠ 0 then 0 else 1

/-- A call with the module, which nobody else asks; `none` where the module ends. -/
def ejecutarPedido (c : ConfigMemoria) (q : Pedido) (s : MemoriaGlobal) : Option (Resultado × MemoriaGlobal) :=
  match q with
  | .saludo .kernel => some (.aceptado, s)
  | .saludo .cpu => some (.setup c.entradasPorTabla c.tamPagina, s)
  | .cpu l => match l.hacer (memoriaSwap c) (some s) with
    | (r, some s') => some (r, s')
    | (_, none) => none
  | .kernel r => (atender c s (pedidoKernel r)).map fun x => (.entero (resultadoKernel x.1 r), x.2)

/-- The calls one after the other: what they return, and the module. -/
def ejecutarPedidos (c : ConfigMemoria) : List Pedido → MemoriaGlobal → Option (List Resultado × MemoriaGlobal)
  | [], s => some ([], s)
  | q :: l, s => (ejecutarPedido c q s).bind fun x => (ejecutarPedidos c l x.2).map fun y => (x.1 :: y.1, y.2)

section Calls

variable {c : ConfigMemoria} {s s' : MemoriaGlobal} {n header : ℕ} {l : Llamada} {r : Request}

theorem ejecutarPedidos_snoc {q : Pedido} {x : Resultado} {qs : List Pedido} {rs : List Resultado}
    {s₀ : MemoriaGlobal} (h : ejecutarPedidos c qs s₀ = some (rs, s)) (hq : ejecutarPedido c q s = some (x, s')) :
    ejecutarPedidos c (qs ++ [q]) s₀ = some (rs ++ [x], s') := by
  induction qs generalizing rs s₀ with
  | nil =>
    obtain ⟨rfl, rfl⟩ := Prod.mk.inj (Option.some.inj h)
    rw [List.nil_append, List.nil_append, ejecutarPedidos, hq]
    rfl
  | cons q' qs ih =>
    obtain ⟨x', h1, h2⟩ := Option.bind_eq_some_iff.mp h
    obtain ⟨y, h3, h4⟩ := Option.map_eq_some_iff.mp h2
    obtain ⟨rfl, rfl⟩ := Prod.mk.inj h4
    rw [List.cons_append, ejecutarPedidos, h1, Option.bind_some, ih h3]
    rfl

/-! ### Numbers in a package -/

theorem deserializeUint32t_ofNat (k n : ℕ) : deserializeUint32t ⟨k, ofNat 4 n⟩ = some (n % 2 ^ 32) := by
  have h1 : word (ofNat 4 n) 0 = some (n % 2 ^ 32) := by
    rw [word, slice_append (rest_start (List.append_nil _).symm) (by simp), Option.map_some, value_ofNat]
    rfl
  rw [deserializeUint32t, deserializarPalabras, leerPalabras, h1]
  rfl

theorem toInt_mod (n : ℕ) : toInt (n % 2 ^ 32 : ℕ) = toInt n := by
  have h1 : n % 2 ^ 32 = toU32 n := by
    unfold toU32
    omega
  rw [h1, toInt_toU32]

theorem numeroBajo_signal (h : header < 2 ^ 32) : numeroBajo header (signal header n h).package = some (toInt n) := by
  have h1 : (signal header n h).package = ⟨header, ⟨4, ofNat 4 n⟩⟩ := rfl
  rw [h1, numeroBajo, if_pos rfl, deserializeUint32t_ofNat, Option.map_some, toInt_mod]

theorem esSignal_signal {g : ℕ} (hn : n < 2 ^ 32) :
    esSignal g (signal mcSignal n mcSignal_lt).package = decide (n = g) := by
  have h1 : (signal mcSignal n mcSignal_lt).package = ⟨mcSignal, ⟨4, ofNat 4 n⟩⟩ := rfl
  rw [h1, esSignal, deserializeUint32t_ofNat, Nat.mod_eq_of_lt hn, decide_eq_true rfl, Bool.true_and]
  simp

/-! ### The CPU's calls -/

/-- What `handle_cpu` answers where the operation gives `n`. -/
def respuestaCpu (m : Cpu.Mensaje) (n : ℕ) : Mensaje :=
  match m with
  | .escribirMarco _ =>
    signal mcSignal (if n = 0 then sgOperationSuccess else sgOperationFailure) mcSignal_lt
  | m => signal (headerCpu m) n (headerCpu_lt m)

theorem handleCpu_mensajeCpu {m : Cpu.Mensaje} (h : Caben (palabrasCpu m)) :
    handleCpu c (mensajeCpu m).package s =
      (atender c s (pedidoDe m)).map fun x => (respuestaCpu m x.1, x.2) := by
  cases m with
  | buscarTablaDePaginas d =>
    have h1 : deserializarDireccion (mensajeCpu (.buscarTablaDePaginas d)).package.payload = some d :=
      deserializarDireccion_serializar rfl h
    have h2 : (mensajeCpu (.buscarTablaDePaginas d)).package.header = mcBuscarTablaDePaginas := rfl
    unfold handleCpu
    rw [h2, if_neg (by decide), if_neg (by decide), if_pos (by decide), h1]
    exact Option.map_eq_bind.symm
  | buscarMarco d =>
    have h1 : deserializarDireccion (mensajeCpu (.buscarMarco d)).package.payload = some d :=
      deserializarDireccion_serializar rfl h
    have h2 : (mensajeCpu (.buscarMarco d)).package.header = mcBuscarMarco := rfl
    unfold handleCpu
    rw [h2, if_neg (by decide), if_neg (by decide), if_neg (by decide), if_pos (by decide), h1]
    exact Option.map_eq_bind.symm
  | leerMarco o =>
    have h1 : deserializarOperacionEU (mensajeCpu (.leerMarco o)).package.payload = some o :=
      deserializarOperacionEU_serializar rfl h
    have h2 : (mensajeCpu (.leerMarco o)).package.header = mcLeerMarco := rfl
    unfold handleCpu
    rw [h2, if_neg (by decide), if_pos (by decide), h1]
    exact Option.map_eq_bind.symm
  | escribirMarco o =>
    have h1 : deserializarOperacionEU (mensajeCpu (.escribirMarco o)).package.payload = some o :=
      deserializarOperacionEU_serializar rfl h
    have h2 : (mensajeCpu (.escribirMarco o)).package.header = mcEscribirMarco := rfl
    unfold handleCpu
    rw [h2, if_pos (by decide), h1]
    exact Option.map_eq_bind.symm

theorem memoriaSwap_some {m : Cpu.Mensaje} (h : atender c s (pedidoDe m) = some (n, s')) :
    memoriaSwap c m (some s) = (some (respuestaDe n m), some s') := by
  rw [memoriaSwap, Option.bind_some, h]

/-- What a call makes of the answer to it is what it returns with the module for itself. -/
theorem hacer_some (h : atender c s (pedidoDe l.pedido) = some (n, s')) :
    l.hacer (memoriaSwap c) (some s) = (l.interpretar (respuestaCpu l.pedido n).package, some s') := by
  have hm := memoriaSwap_some h
  cases l with
  | getSegundoNivel d =>
    have h1 : numeroBajo mcBuscarTablaDePaginas
        (respuestaCpu (Llamada.getSegundoNivel d).pedido n).package = some (toInt n) := numeroBajo_signal _
    rw [Llamada.pedido] at hm
    rw [Llamada.interpretar, h1, Llamada.hacer, Cpu.getSegundoNivel, hm]
    rw [Option.getD_some]
    dsimp only [respuestaDe]
  | getFrame d =>
    have h1 : numeroBajo mcBuscarMarco (respuestaCpu (Llamada.getFrame d).pedido n).package =
        some (toInt n) := numeroBajo_signal _
    rw [Llamada.pedido] at hm
    rw [Llamada.interpretar, h1, Llamada.hacer, Cpu.getFrame, hm]
    rw [Option.getD_some]
    dsimp only [respuestaDe]
  | getValorMemoria pcb dir =>
    have h1 : numeroBajo mcLeerMarco (respuestaCpu (Llamada.getValorMemoria pcb dir).pedido n).package =
        some (toInt n) := numeroBajo_signal _
    rw [Llamada.pedido] at hm
    rw [Llamada.interpretar, h1, Llamada.hacer, Cpu.getValorMemoria, hm]
    dsimp only [respuestaDe]
  | setValorMemoria pcb dir valor =>
    have hg : (if n = 0 then sgOperationSuccess else sgOperationFailure) < 2 ^ 32 := by
      split_ifs <;> decide
    have h1 : esSignal sgOperationSuccess
        (respuestaCpu (Llamada.setValorMemoria pcb dir valor).pedido n).package =
          decide ((if n = 0 then sgOperationSuccess else sgOperationFailure) = sgOperationSuccess) :=
      esSignal_signal hg
    rw [Llamada.pedido] at hm
    rw [Llamada.interpretar, h1, Llamada.hacer, Cpu.setValorMemoria, hm]
    dsimp only [respuestaDe]
    by_cases hn : n = 0
    · rw [if_pos hn, if_pos hn]
      rfl
    · rw [if_neg hn, if_neg hn]
      rfl

theorem hacer_none (h : atender c s (pedidoDe l.pedido) = none) :
    (l.hacer (memoriaSwap c) (some s)).2 = none := by
  have hm : memoriaSwap c l.pedido (some s) = (none, none) := by
    rw [memoriaSwap, Option.bind_some, h]
  cases l with
  | getSegundoNivel d =>
    rw [Llamada.pedido] at hm
    rw [Llamada.hacer, Cpu.getSegundoNivel, hm]
  | getFrame d =>
    rw [Llamada.pedido] at hm
    rw [Llamada.hacer, Cpu.getFrame, hm]
  | getValorMemoria pcb dir =>
    rw [Llamada.pedido] at hm
    rw [Llamada.hacer, Cpu.getValorMemoria, hm]
  | setValorMemoria pcb dir valor =>
    rw [Llamada.pedido] at hm
    rw [Llamada.hacer, Cpu.setValorMemoria, hm]

/-! ### The kernel's calls -/

theorem payload_kernel (r : Request) : r.payload = (serializarPalabras (palabrasKernel r)).stream := by
  cases r <;> simp [Request.payload, serializarPalabras, palabrasKernel]

theorem handleKernel_mensaje (h : Caben (palabrasKernel r)) : handleKernel c r.mensaje.package s =
    (atender c s (pedidoKernel r)).map fun x => (answer r.header x.1, x.2) := by
  have hp : r.mensaje.package.payload.stream = (serializarPalabras (palabrasKernel r)).stream :=
    payload_kernel r
  cases r with
  | getEntryPageTable pcbId processSize =>
    have hh : (Request.getEntryPageTable pcbId processSize).mensaje.package.header = mcNuevoProceso := rfl
    unfold handleKernel
    rw [hh, Request.header, if_pos rfl, deserializarPageEntryRequest_serializar hp h, pedidoKernel,
      Option.bind_eq_bind, Option.bind_some]
    exact Option.map_eq_bind.symm
  | swappProcess tablaPaginas =>
    have hh : (Request.swappProcess tablaPaginas).mensaje.package.header = mcSuspenderProceso := rfl
    unfold handleKernel
    rw [hh, Request.header, if_neg (by decide), if_pos rfl, deserializeUint32t_serialize hp h]
    exact Option.map_eq_bind.symm
  | freeAllocatedMemory tablaPaginas =>
    have hh : (Request.freeAllocatedMemory tablaPaginas).mensaje.package.header = mcFinalizarProceso := rfl
    unfold handleKernel
    rw [hh, Request.header, if_neg (by decide), if_neg (by decide), if_pos rfl,
      deserializeUint32t_serialize hp h]
    exact Option.map_eq_bind.symm

theorem value_take_signal (h : n < 2 ^ 32) : value ((ofNat 4 n).take 4) = n := by
  rw [List.take_of_length_le (by simp), value_ofNat]
  exact Nat.mod_eq_of_lt h

theorem interpretar_kernel (r : Request) (n : ℕ) :
    interpretar (.kernel r) (answer r.header n).package = .entero (resultadoKernel n r) := by
  have hg : (if n ≠ 0 then sgOperationSuccess else sgOperationFailure) < 2 ^ 32 := by
    split_ifs <;> decide
  cases r with
  | getEntryPageTable pcbId processSize =>
    have h1 : (answer mcNuevoProceso n).package = ⟨mcNuevoProceso, ⟨4, ofNat 4 n⟩⟩ := rfl
    rw [interpretar, Request.header, h1, if_pos rfl, Request.result, resultadoKernel,
      List.take_of_length_le (by simp), value_ofNat, show 256 ^ 4 = 2 ^ 32 from rfl, toInt_mod]
  | swappProcess tablaPaginas =>
    have h1 : (answer mcSuspenderProceso n).package = ⟨mcSuspenderProceso,
      ⟨4, ofNat 4 (if n ≠ 0 then sgOperationSuccess else sgOperationFailure)⟩⟩ := rfl
    rw [interpretar, Request.header, h1, if_pos rfl, Request.result, value_take_signal hg, resultadoKernel]
    split_ifs <;> simp_all [sgOperationSuccess, sgOperationFailure]
  | freeAllocatedMemory tablaPaginas =>
    have h1 : (answer mcFinalizarProceso n).package = ⟨mcFinalizarProceso,
      ⟨4, ofNat 4 (if n ≠ 0 then sgOperationSuccess else sgOperationFailure)⟩⟩ := rfl
    rw [interpretar, Request.header, h1, if_pos rfl, Request.result, value_take_signal hg, resultadoKernel]
    split_ifs <;> simp_all [sgOperationSuccess, sgOperationFailure]

/-! ### The handshake -/

/-- What a client is answered. -/
def respuestaSaludo (c : ConfigMemoria) : Cliente → Mensaje
  | .kernel => signal mcSignal sgConnectionAccepted mcSignal_lt
  | .cpu => memorySetup c

theorem serverHandshake_saludo (x : Cliente) :
    serverHandshake c (Pedido.saludo x).mensaje.package = some (respuestaSaludo c x, x) := by
  have h1 : (Pedido.saludo x).mensaje.package = ⟨mcProcessCode, ⟨4, ofNat 4 x.code⟩⟩ := rfl
  rw [h1, serverHandshake, if_pos rfl, deserializeUint32t_ofNat]
  cases x <;> rfl

theorem interpretar_saludo (x : Cliente) :
    ejecutarPedido c (.saludo x) s = some (interpretar (.saludo x) (respuestaSaludo c x).package, s) := by
  cases x with
  | kernel =>
    have h1 : esSignal sgConnectionAccepted (respuestaSaludo c .kernel).package = true := by
      rw [respuestaSaludo, esSignal_signal (by decide)]
      exact decide_eq_true rfl
    rw [interpretar, if_pos h1, ejecutarPedido]
  | cpu =>
    have h1 : Caben [c.entradasPorTabla, c.tamPagina] :=
      List.forall_mem_cons.mpr ⟨c.entradasPorTabla_lt, List.forall_mem_singleton.mpr c.tamPagina_lt⟩
    have h2 : (respuestaSaludo c .cpu).package.header = mcMemorySetup := rfl
    have h3 : deserializarSetupMemoria (respuestaSaludo c .cpu).package.payload =
        some (c.entradasPorTabla, c.tamPagina) := deserializarSetupMemoria_serializar rfl h1
    rw [interpretar, if_pos h2, h3, ejecutarPedido]

/-! ### One request -/

/-- Call number `k` of a client is the handshake or one of its requests. -/
def Permitido {ι : Type*} (proceso : ι → Cliente) (i : ι) (k : ℕ) (q : Pedido) : Prop :=
  Caben q.palabras ∧ if k = 0 then q = .saludo (proceso i) else q.de = some (proceso i)

instance {ι : Type*} (proceso : ι → Cliente) (i : ι) (k : ℕ) (q : Pedido) :
    Decidable (Permitido proceso i k q) := inferInstanceAs (Decidable (_ ∧ _))

variable {k k' : Option Cliente} {x : Cliente} {q : Pedido} {a : Mensaje}

/-- A request that its thread serves is served as if it were alone. -/
theorem serve_ejecutar (hq : Caben q.palabras) (hde : q.de = some x) :
    (protocolo c).serve (some x) q.mensaje.package s = none ∧ ejecutarPedido c q s = none ∨
      ∃ a s', (protocolo c).serve (some x) q.mensaje.package s = some (a, s') ∧
        ejecutarPedido c q s = some (interpretar q a.package, s') := by
  cases q with
  | saludo y => cases hde
  | cpu l =>
    obtain rfl : Cliente.cpu = x := Option.some.inj hde
    have h1 : (protocolo c).serve (some .cpu) (Pedido.cpu l).mensaje.package s =
        (atender c s (pedidoDe l.pedido)).map fun x => (respuestaCpu l.pedido x.1, x.2) :=
      handleCpu_mensajeCpu hq
    rcases hat : atender c s (pedidoDe l.pedido) with _ | ⟨n, s'⟩
    · refine Or.inl ⟨by rw [h1, hat]; rfl, ?_⟩
      have h2 := hacer_none hat
      rw [ejecutarPedido]
      generalize l.hacer (memoriaSwap c) (some s) = z at h2 ⊢
      obtain ⟨r, t⟩ := z
      obtain rfl : t = none := h2
      rfl
    · refine Or.inr ⟨_, _, by rw [h1, hat]; rfl, ?_⟩
      rw [ejecutarPedido, hacer_some hat, interpretar]
  | kernel r =>
    obtain rfl : Cliente.kernel = x := Option.some.inj hde
    have h1 : (protocolo c).serve (some .kernel) (Pedido.kernel r).mensaje.package s =
        (atender c s (pedidoKernel r)).map fun x => (answer r.header x.1, x.2) := handleKernel_mensaje hq
    rw [h1, ejecutarPedido]
    rcases atender c s (pedidoKernel r) with _ | ⟨n, s'⟩
    · exact Or.inl ⟨rfl, rfl⟩
    · refine Or.inr ⟨_, _, rfl, ?_⟩
      rw [interpretar_kernel]
      rfl

theorem respond_ejecutar (hq : Caben q.palabras)
    (hk : k = none ∧ q = .saludo x ∨ k = some x ∧ q.de = some x)
    (h : respond (protocolo c) k q.mensaje.package s = some (a, k', s')) :
    k' = some x ∧ ejecutarPedido c q s = some (interpretar q a.package, s') := by
  rcases hk with ⟨rfl, rfl⟩ | ⟨rfl, hde⟩
  · have h1 : (protocolo c).greet none (Pedido.saludo x).mensaje.package =
        some (respuestaSaludo c x, some x) := by
      have h2 := serverHandshake_saludo (c := c) x
      show (serverHandshake c (Pedido.saludo x).mensaje.package).map _ = _
      rw [h2]
      rfl
    rw [respond, h1] at h
    obtain ⟨rfl, h3⟩ := Prod.mk.inj (Option.some.inj h)
    obtain ⟨rfl, rfl⟩ := Prod.mk.inj h3
    exact ⟨rfl, interpretar_saludo x⟩
  · have h1 : (protocolo c).greet (some x) q.mensaje.package = none := rfl
    rw [respond, h1] at h
    rcases serve_ejecutar (s := s) hq hde with ⟨h2, -⟩ | ⟨a', s1, h2, h3⟩
    · rw [h2] at h
      cases h
    · rw [h2] at h
      obtain ⟨rfl, h4⟩ := Prod.mk.inj (Option.some.inj h)
      obtain ⟨rfl, rfl⟩ := Prod.mk.inj h4
      exact ⟨rfl, h3⟩

end Calls

/-! ### The runs -/

/-- The connections and the module. -/
abbrev Red (ι : Type*) := Net ι UInt8 Pedido Package Mensaje Package (Option Cliente) MemoriaGlobal

/-- A call of the log, with what it returns. -/
def vista {ι : Type*} (e : Entry ι Pedido Package Mensaje) : ι × Pedido × Resultado :=
  match e.call with
  | some q => (e.conn, q, interpretar q e.answer.package)
  | none => (e.conn, .saludo .kernel, .rechazado)

/-- **The calls of `h` are those of the run, one after the other**: the module executes them in
that order with those results; a call that returned is the one of its client with its number,
at a place between its beginning and its return; and no others are there but those that
have been answered and have not returned. -/
structure Secuencial {ι : Type*} [DecidableEq ι] (c : ConfigMemoria) (s₀ : MemoriaGlobal) (n : Red ι)
    (h : List (ι × Pedido × Resultado)) : Prop where
  ejecucion : ejecutarPedidos c (h.map (·.2.1)) s₀ = some (h.map (·.2.2), n.state)
  devueltas : ∀ i k x, (n.conns i).calls[k]? = some x → ∃ t, x.since ≤ t ∧ t < x.upto ∧
    h[t]? = some (i, x.request, interpretar x.request x.answer) ∧ (h.take t).countP (·.1 = i) = k
  pendientes : ∀ i, h.countP (·.1 = i) = (n.conns i).calls.length ∨
    ((n.conns i).pending.isSome ∧ h.countP (·.1 = i) = (n.conns i).calls.length + 1)

section Runs

variable {ι : Type*} [DecidableEq ι] {c : ConfigMemoria} {s s₀ : MemoriaGlobal} {proceso : ι → Cliente}
  {log : List (Entry ι Pedido Package Mensaje)} {ks : ι → Option Cliente} {n : Red ι}

/-- The log as calls one after the other, and what each thread knows of its client. -/
theorem replays_ejecutar (hr : Replays (protocolo c) none s₀ log ks s)
    (hl : Listed (protocolo c) (Permitido proceso) log) :
    (∀ i, ks i = if log.countP (·.conn = i) = 0 then none else some (proceso i)) ∧
      ejecutarPedidos c (log.map fun e => (vista e).2.1) s₀ = some (log.map fun e => (vista e).2.2, s) := by
  induction hr with
  | nil => exact ⟨fun i => rfl, rfl⟩
  | @snoc log ks s s' k e _ hres ih =>
    obtain ⟨hl', q, hq, hreq, hcab, hnum⟩ := hl.of_snoc
    obtain ⟨hks, hej⟩ := ih hl'
    have hk : ks e.conn = none ∧ q = .saludo (proceso e.conn) ∨
        ks e.conn = some (proceso e.conn) ∧ q.de = some (proceso e.conn) := by
      have h1 := hks e.conn
      by_cases h0 : log.countP (·.conn = e.conn) = 0
      · rw [if_pos h0] at h1 hnum
        exact Or.inl ⟨h1, hnum⟩
      · rw [if_neg h0] at h1 hnum
        exact Or.inr ⟨h1, hnum⟩
    rw [hreq] at hres
    obtain ⟨rfl, h2⟩ := respond_ejecutar hcab hk hres
    refine ⟨fun i => ?_, ?_⟩
    · rw [List.countP_append]
      by_cases hi : i = e.conn
      · subst hi
        rw [Function.update_self, if_neg (by simp)]
      · rw [Function.update_of_ne hi, hks i]
        simp [Ne.symm hi]
    · have hv : vista e = (e.conn, q, interpretar q e.answer.package) := by
        rw [vista, hq]
      rw [List.map_append, List.map_append, List.map_singleton, List.map_singleton, hv]
      exact ejecutarPedidos_snoc hej h2

end Runs

/-! ### A run -/

/-- The kernel and a CPU. -/
def clienteDe (esCpu : Bool) : Cliente := if esCpu then .cpu else .kernel

/-- A PCB with table 0. -/
def pcbCero : Cpu.Pcb := ⟨7, 0, 0, .nullCondition, 0, 0, 0, []⟩

/-- A call that goes through all its steps. -/
def entera (i : Bool) (q : Pedido) (ida vuelta : ℕ) : List (Bool × Rpc.Action Pedido) :=
  [(i, .call q), (i, .deliver ida), (i, .receive), (i, .take), (i, .finish), (i, .release),
    (i, .deliverBack vuelta), (i, .collect)]

/-- The handshakes, the CPU's in pieces; a process of two pages; and a write while the kernel
suspends the process, which has not been answered. -/
def mezcla : List (Bool × Rpc.Action Pedido) :=
  [(true, .call (.saludo .cpu)), (false, .call (.saludo .kernel)), (true, .deliver 5), (false, .deliver 12),
    (false, .receive), (true, .deliver 7), (true, .receive), (true, .greet), (false, .greet),
    (true, .deliverBack 3), (false, .deliverBack 12), (false, .collect), (true, .deliverBack 13),
    (true, .collect)] ++ entera false (.kernel (.getEntryPageTable 7 8)) 16 12 ++
  entera true (.cpu (.getFrame ⟨7, 0, 0, 1⟩)) 24 12 ++
  [(true, .call (.cpu (.setValorMemoria pcbCero ⟨1, 0, 0, true⟩ 55))), (true, .deliver 24), (true, .receive),
    (false, .call (.kernel (.swappProcess 0))), (false, .deliver 12), (false, .receive), (true, .take),
    (true, .finish), (true, .release), (false, .take), (true, .deliverBack 12), (false, .finish),
    (true, .collect), (false, .release)]

/-- A run from the module without processes. -/
def correrRed (xs : List (Bool × Rpc.Action Pedido)) : Option (Red Bool) :=
  run (protocolo (Memoria.chica 2 2)) (fun i k q => decide (Permitido clienteDe i k q)) xs
    (initial none Memoria.sinProcesos)

theorem correrRed_reach {xs : List (Bool × Rpc.Action Pedido)} {n : Red Bool} (h : correrRed xs = some n) :
    Reach (protocolo (Memoria.chica 2 2)) (Permitido clienteDe) (initial none Memoria.sinProcesos) n :=
  reach_of_run (fun _ _ _ hq => of_decide_eq_true hq) .start h

end Conexiones
end Kiss
