import Kiss.Threads
import Kiss.Calls
import Kiss.Structs
import Kiss.Kernel.Planner
import Kiss.Kernel.Branches
import Kiss.Kernel.Reuse
import Kiss.Kernel.Flow
import Kiss.Kernel.Places
import Kiss.Kernel.Permits
import Kiss.Kernel.Announced
import Kiss.Kernel.Counts
import Kiss.Kernel.Timers
import Kiss.Kernel.Suspension
import Kiss.Kernel.Cancellation
import Kiss.Kernel.Ownership
import Kiss.Kernel.Status
import Kiss.Kernel.Standing
import Kiss.Kernel.Multiprogramming
import Kiss.Kernel.Freed
import Kiss.Kernel.Cycle
import Kiss.Kernel.Replies
import Kiss.Kernel.Occupancy
import Kiss.Kernel.IoDevice
import Kiss.Insertion
import Kiss.Kernel.ReadyOrder
import Kiss.Kernel.Failures
import Kiss.Kernel.Redispatch
import Kiss.Kernel.Imemory
import Kiss.Cpu.CicloInstruccion
import Kiss.Cpu.Despacho
import Kiss.Cpu.Orden
import Kiss.Cpu.Condicion
import Kiss.Cpu.Interrupciones
import Kiss.Cpu.Recientes
import Kiss.Cpu.Politicas
import Kiss.Cpu.Fallos
import Kiss.Shared.ThreadMonitor
import Kiss.Chain
import Kiss.Shared.LinkedList
import Kiss.Shared.ListRefines
import Kiss.Consola.Parser
import Kiss.Consola.Archivo
import Kiss.Consola.Lineas
import Kiss.Cpu.Alcance
import Kiss.Memoria.Desalojos
import Kiss.Cpu.Transparencia
import Kiss.Serializacion.Bytes
import Kiss.Serializacion.Formato
import Kiss.Serializacion.IdaYVuelta
import Kiss.Serializacion.Mensajes
import Kiss.Serializacion.Limites
import Kiss.Kernel.InOrder
import Kiss.Sistema
import Kiss.Memoria.Reloj
import Kiss.Memoria.Flotante
import Kiss.Memoria.Copia
import Kiss.Memoria.Tablas
import Kiss.Memoria.Marcos
import Kiss.Memoria.Proceso
import Kiss.Memoria.Simulacion
import Kiss.Memoria.Creacion
import Kiss.Memoria.Corridas
import Kiss.Memoria.Altas
import Kiss.Memoria.Vistas
import Kiss.Memoria.Servidor
import Kiss.Memoria.Aislamiento
import Kiss.Memoria.Agotamiento
import Kiss.Memoria.Finalizacion
import Kiss.Memoria.Cobertura
import Kiss.Memoria.Plana
import Kiss.Memoria.Lecturas
import Kiss.Memoria.Clases
import Kiss.Memoria.Victimas
import Kiss.Memoria.SegundaOportunidad
import Kiss.Memoria.Colas
import Kiss.Progress
import Kiss.Kernel.Wakeups
import Kiss.Kernel.Lasting
import Kiss.Kernel.Drained
import Kiss.Kernel.Results
import Kiss.Lenguaje
import Kiss.Accesos
import Kiss.Ejecucion.Modelo
import Kiss.Ejecucion.Pasos
import Kiss.Ejecucion.Resultado
import Kiss.Competencia
import Kiss.Cpu.Competitividad
import Kiss.Memoria.Competitividad
import Kiss.Rpc
import Kiss.Serializacion.Palabras
import Kiss.Conexiones
import Kiss.Memoria.Capacidad
import Kiss.Kernel.Protocol
