/-
# The wire format

`shared/src/serialization.c` and `kiss.serialization.c`: packages, programs and
PCBs as bytes. An encoder announces a size, computed in C's integers, and writes
its fields one after the other; a decoder reads them at an offset it keeps in an
`int`. Reading outside the bytes is `none`. A decoded parameter is the block of
memory it was copied to, which is a string where it holds its NUL.

Key definitions: `Buffer`, `serializarPaquete`, `serializarListaInstrucciones`,
`deserializarListaInstrucciones`, `serializarPcb`, `deserializarPcb`, `serializeProgram`,
`deserializeProgram`.
-/
import Kiss.Cpu.Mmu
import Kiss.Serializacion.Bytes

namespace Kiss

/-! ### Codes -/

/-- The numbers of `t_codigo_instruccion`. -/
def CodigoInstruccion.code : CodigoInstruccion → ℕ
  | noOp => 0
  | io => 1
  | write => 2
  | copy => 3
  | read => 4
  | exit => 5
  | otro n _ => n

/-- The code a 32-bit number is. -/
def CodigoInstruccion.ofCode (n : ℕ) : CodigoInstruccion :=
  if h : 6 ≤ n % 2 ^ 32 then otro (n % 2 ^ 32) ⟨h, Nat.mod_lt _ (by decide)⟩
  else match n % 2 ^ 32 with
    | 0 => noOp
    | 1 => io
    | 2 => write
    | 3 => copy
    | 4 => read
    | _ => exit

/-- The numbers of `t_dispatch_cond`. -/
def DispatchCond.code : DispatchCond → ℕ
  | nullCondition => 0
  | exitProgram => 1
  | interruptedByKernel => 2
  | ioSyscall => 3

/-- The condition of a number, where it is one. -/
def DispatchCond.ofCode : ℕ → Option DispatchCond
  | 0 => some nullCondition
  | 1 => some exitProgram
  | 2 => some interruptedByKernel
  | 3 => some ioSyscall
  | _ => none

namespace Serializacion

open Bytes

/-! ### Packages -/

/-- `t_buffer`: the size it has and the bytes that were written. -/
structure Buffer where
  size : ℕ
  stream : List UInt8
  deriving DecidableEq, Repr

/-- `t_package`. -/
structure Package where
  header : ℕ
  payload : Buffer
  deriving DecidableEq, Repr

/-- A buffer that `memcpy` copies into another one. -/
def copiar (buffer : Buffer) : List UInt8 :=
  if 0 < buffer.size then buffer.stream.take buffer.size else []

/-- `serializar_paquete`: the bytes, and what it leaves in `*size`. -/
def serializarPaquete (package : Package) : Buffer where
  size := toU32 (4 * 2 + package.payload.size)
  stream := ofNat 4 package.header ++ ofNat 4 package.payload.size ++ copiar package.payload

/-- `deserializar_paquete`. -/
def deserializarPaquete (stream : List UInt8) : Option Package := do
  let header ← word stream 0
  let size ← word stream 4
  let bytes ← slice stream 8 size
  some ⟨header, ⟨size, bytes⟩⟩

/-! ### Instructions -/

/-- The string in a block of memory, up to its first NUL. -/
def cadena (s : List UInt8) : Cadena := s.takeWhile (· ≠ 0)

def strlen (s : Cadena) : ℕ := (cadena s).length

/-- The first pass of `serializar_lista_instrucciones`. -/
def streamSize (l : List Instruction) : ℤ :=
  l.foldl (fun n i => i.parametros.foldl (fun n p => toInt (n + (4 + strlen p + 1)))
    (toInt (n + 4 * 2))) 0

/-- A parameter with its length, which counts the final NUL. -/
def escribirParametro (p : Cadena) : List UInt8 :=
  let sizeParametro := toU32 (strlen p + 1)
  ofNat 4 sizeParametro ++ (cadena p ++ [0]).take sizeParametro

def escribirInstruccion (i : Instruction) : List UInt8 :=
  ofNat 4 i.codigo.code ++ ofNat 4 (toU32 i.parametros.length) ++
    i.parametros.flatMap escribirParametro

/-- `serializar_lista_instrucciones`. -/
def serializarListaInstrucciones (l : List Instruction) : Buffer where
  size := toU32 (streamSize l + 4)
  stream := ofNat 4 (toU32 l.length) ++ l.flatMap escribirInstruccion

/-- An instruction as it is received: its parameters are blocks of memory. -/
structure InstruccionLeida where
  codigo : CodigoInstruccion
  parametros : List (List UInt8)
  deriving DecidableEq, Repr

/-- The instruction, where its parameters are strings. -/
def InstruccionLeida.instruction (i : InstruccionLeida) : Instruction :=
  ⟨i.codigo, i.parametros.map cadena⟩

/-- The loop over `p_count`. -/
def leerParametros (stream : List UInt8) : ℕ → ℤ → Option (List (List UInt8) × ℤ)
  | 0, offset => some ([], offset)
  | n + 1, offset => do
    let size ← word stream offset
    let param ← slice stream (toInt (offset + 4)) (toInt size)
    let (l, offset) ← leerParametros stream n (toInt (toInt (offset + 4) + toInt size))
    some (param :: l, offset)

/-- The loop over `i_count`. -/
def leerInstrucciones (stream : List UInt8) : ℕ → ℤ → Option (List InstruccionLeida × ℤ)
  | 0, offset => some ([], offset)
  | n + 1, offset => do
    let codigo ← word stream offset
    let pCount ← word stream (toInt (offset + 4))
    let (parametros, offset) ← leerParametros stream pCount (toInt (toInt (offset + 4) + 4))
    let (l, offset) ← leerInstrucciones stream n offset
    some (⟨.ofCode codigo, parametros⟩ :: l, offset)

/-- `deserializar_lista_instrucciones`. -/
def deserializarListaInstrucciones (buffer : Buffer) : Option (List InstruccionLeida) := do
  let iCount ← word buffer.stream 0
  let (l, _) ← leerInstrucciones buffer.stream iCount 4
  some l

/-! ### PCBs -/

/-- `serializar_pcb`. -/
def serializarPcb (pcb : Cpu.Pcb) : Buffer :=
  let instrucciones := serializarListaInstrucciones pcb.instructions
  { size := toU32 (8 * 4 + instrucciones.size)
    stream := ofNat 4 (toU32 pcb.id) ++ ofNat 4 (toU32 pcb.programCounter) ++
      ofNat 4 (toU32 pcb.tablaPaginas) ++ ofNat 4 pcb.cpuDispatchCond.code ++
      ofNat 4 (toU32 pcb.cpuExecutedBurst) ++ ofNat 4 (toU32 pcb.cpuEstimatedBurst) ++
      ofNat 4 (toU32 pcb.ioBurst) ++ ofNat 4 instrucciones.size ++ copiar instrucciones }

/-- A PCB as it is received. -/
structure PcbLeido where
  id : ℤ
  programCounter : ℤ
  tablaPaginas : ℤ
  cpuDispatchCond : ℕ
  cpuExecutedBurst : ℤ
  cpuEstimatedBurst : ℤ
  ioBurst : ℤ
  instructions : List InstruccionLeida
  deriving DecidableEq, Repr

/-- The PCB, where its condition is one of `t_dispatch_cond`. -/
def PcbLeido.pcb (p : PcbLeido) : Option Cpu.Pcb :=
  (DispatchCond.ofCode p.cpuDispatchCond).map fun cond =>
    ⟨p.id, p.programCounter, p.tablaPaginas, cond, p.cpuExecutedBurst, p.cpuEstimatedBurst,
      p.ioBurst, p.instructions.map InstruccionLeida.instruction⟩

/-- `deserializar_pcb`. -/
def deserializarPcb (buffer : Buffer) : Option PcbLeido := do
  let id ← word buffer.stream 0
  let programCounter ← word buffer.stream 4
  let tablaPaginas ← word buffer.stream 8
  let cpuDispatchCond ← word buffer.stream 12
  let cpuExecutedBurst ← word buffer.stream 16
  let cpuEstimatedBurst ← word buffer.stream 20
  let ioBurst ← word buffer.stream 24
  let size ← word buffer.stream 28
  let stream ← slice buffer.stream 32 size
  let instructions ← deserializarListaInstrucciones ⟨size, stream⟩
  some ⟨toInt id, toInt programCounter, toInt tablaPaginas, cpuDispatchCond,
    toInt cpuExecutedBurst, toInt cpuEstimatedBurst, toInt ioBurst, instructions⟩

/-! ### Programs -/

/-- `serialize_program`. -/
def serializeProgram (program : Program) : Buffer :=
  let instrucciones := serializarListaInstrucciones program.instructions
  { size := toU32 (2 * 4 + instrucciones.size)
    stream := ofNat 4 (toU32 program.size) ++ ofNat 4 instrucciones.size ++ copiar instrucciones }

/-- A program as it is received. -/
structure ProgramLeido where
  size : ℤ
  instructions : List InstruccionLeida
  deriving DecidableEq, Repr

def ProgramLeido.program (p : ProgramLeido) : Program :=
  ⟨p.size, p.instructions.map InstruccionLeida.instruction⟩

/-- `deserialize_program`. -/
def deserializeProgram (buffer : Buffer) : Option ProgramLeido := do
  let processSize ← word buffer.stream 0
  let size ← word buffer.stream 4
  let stream ← slice buffer.stream 8 size
  let instructions ← deserializarListaInstrucciones ⟨size, stream⟩
  some ⟨toInt processSize, instructions⟩

end Serializacion
end Kiss
