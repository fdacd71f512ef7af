/-
# Requests seen from one process

A request on the table of a process is the operation of that process by itself, and the
processes with other files do not see it: what `Simulacion` proves of each function, said
once for every request. A write must stay in its page for this; a read may go past it,
and then only what it answers is not its own.

Key definitions: `Proceso.ejecutar`, `Operacion.EnPagina`, `SinLugar`, `Distintos`.
Key theorems: `ejecutar_simula`, `ejecutar_estado`, `vista_ajena`.
-/
import Kiss.Memoria.Corridas

namespace Kiss
namespace Memoria

variable {c : ConfigMemoria} {s s' s0 : MemoriaGlobal} {t u p n : ℕ} {fin : List ℕ} {v : Proceso}
  {tt tu : TablaPrimerNivel} {o : Operacion}

/-- The request on the process by itself; which frame a page has is nothing of its own. -/
def Proceso.ejecutar (c : ConfigMemoria) (v : Proceso) : Operacion → Option (ℕ × Proceso)
  | .escribir _ p d dato => v.escribir c p d dato
  | .leer _ p d => v.leer c p d
  | .buscarMarco _ p => (v.buscarMarco c p).map fun v => (0, v)
  | .suspender _ => (v.suspender c).map fun v => (1, v)
  | .iniciar _ _ | .finalizar _ => none

namespace Operacion

/-- The four bytes are in the page, or the request is refused. -/
def EnPagina (c : ConfigMemoria) : Operacion → Prop
  | .escribir _ _ d _ | .leer _ _ d => d + 4 ≤ c.tamPagina ∨ c.tamPagina ≤ d
  | _ => True

/-- The same for the writes. -/
def EscribeEnPagina (c : ConfigMemoria) : Operacion → Prop
  | .escribir _ _ d _ => d + 4 ≤ c.tamPagina ∨ c.tamPagina ≤ d
  | _ => True

theorem EnPagina.escribe (h : o.EnPagina c) : o.EscribeEnPagina c := by
  cases o with
  | escribir t p d dato => exact h
  | _ => trivial

/-- The request is answered with a frame. -/
def daMarco : Operacion → Bool
  | .buscarMarco _ _ => true
  | _ => false

/-- The page that the request needs in memory. -/
def acceso : Operacion → Option (ℕ × ℕ)
  | .escribir t p _ _ | .leer t p _ | .buscarMarco t p => some (t, p)
  | _ => none

end Operacion

/-- The request needs a free frame and there is none. -/
def SinLugar (c : ConfigMemoria) (s : MemoriaGlobal) (o : Operacion) : Prop :=
  ∃ t p, o.acceso = some (t, p) ∧ Agotado c s t p

/-! ### The process of the request -/

theorem rel_map {α β γ δ : Type*} {R : α → β → Prop} {S : γ → δ → Prop} {f : α → γ} {g : β → δ}
    (h : ∀ a b, R a b → S (f a) (g b)) {x : Option α} {y : Option β} (hxy : Option.Rel R x y) :
    Option.Rel S (x.map f) (y.map g) := by
  cases hxy with
  | some hab => exact Option.Rel.some (h _ _ hab)
  | none => exact Option.Rel.none

theorem rel_mono {α β : Type*} {R S : α → β → Prop} (h : ∀ a b, R a b → S a b) {x : Option α}
    {y : Option β} (hxy : Option.Rel R x y) : Option.Rel S x y := by
  cases hxy with
  | some hab => exact Option.Rel.some (h _ _ hab)
  | none => exact Option.Rel.none

/-- **A request on a process** is the operation of the process by itself. -/
theorem ejecutar_simula (h : Ve c fin t s0 s v) (hfin : t ∉ fin) (ht : o.tabla = some t)
    (hf : o.finaliza = []) (hd : o.EnPagina c) :
    SinLugar c s o ∧ ejecutar c s o = none ∨
      Option.Rel (fun x y => (o.daMarco = false → x.1 = y.1) ∧ Ve c fin t s0 x.2 y.2)
        (ejecutar c s o) (v.ejecutar c o) := by
  cases o with
  | iniciar tam pid => cases ht
  | finalizar u => cases hf
  | escribir u p d dato =>
    obtain rfl := Option.some.inj ht
    rcases escribir_simula (p := p) h hfin hd dato with ⟨h1, h2⟩ | h1
    · exact Or.inl ⟨⟨u, p, rfl, h1⟩, h2⟩
    · exact Or.inr (rel_mono (fun _ _ h2 => ⟨fun _ => h2.1, h2.2⟩) h1)
  | leer u p d =>
    obtain rfl := Option.some.inj ht
    rcases leer_simula (p := p) h hfin hd with ⟨h1, h2⟩ | h1
    · exact Or.inl ⟨⟨u, p, rfl, h1⟩, h2⟩
    · exact Or.inr (rel_mono (fun _ _ h2 => ⟨fun _ => h2.1, h2.2⟩) h1)
  | buscarMarco u p =>
    obtain rfl := Option.some.inj ht
    rcases buscarMarco_simula (p := p) h hfin with ⟨h1, h2⟩ | h1
    · exact Or.inl ⟨⟨u, p, rfl, h1⟩, h2⟩
    · refine Or.inr ?_
      have h2 := rel_map (f := id) (g := fun v => (0, v)) (S := fun x y =>
        ((Operacion.buscarMarco u p).daMarco = false → x.1 = y.1) ∧ Ve c fin u s0 x.2 y.2)
        (fun _ _ h2 => ⟨fun h => (by cases h), h2.1⟩) h1
      rwa [Option.map_id] at h2
  | suspender u =>
    obtain rfl := Option.some.inj ht
    refine Or.inr (rel_map (fun x _ h2 => ⟨fun _ => ?_, h2.2⟩) (suspender_simula h))
    rw [h2.1]
    rfl

/-- What a request leaves, wherever it reads. -/
theorem ejecutar_estado (h : Ve c fin t s0 s v) (hfin : t ∉ fin) (ht : o.tabla = some t)
    (hf : o.finaliza = []) (hd : o.EscribeEnPagina c) (hs : ejecutar c s o = some (n, s')) :
    ∃ m v', v.ejecutar c o = some (m, v') ∧ (o.EnPagina c → o.daMarco = false → n = m) ∧
      Ve c fin t s0 s' v' := by
  have hen : o.EnPagina c → ∃ m v', v.ejecutar c o = some (m, v') ∧
      (o.EnPagina c → o.daMarco = false → n = m) ∧ Ve c fin t s0 s' v' := fun hd => by
    rcases ejecutar_simula h hfin ht hf hd with ⟨-, h1⟩ | h1
    · rw [hs] at h1
      cases h1
    · rw [hs] at h1
      rcases hv : v.ejecutar c o with _ | ⟨m, v'⟩
      · rw [hv] at h1
        cases h1
      · rw [hv] at h1
        cases h1 with
        | some h1 => exact ⟨m, v', rfl, fun _ => h1.1, h1.2⟩
  cases o with
  | leer u p d =>
    obtain rfl := Option.some.inj ht
    by_cases hle : d + 4 ≤ c.tamPagina ∨ c.tamPagina ≤ d
    · exact hen hle
    · obtain ⟨m, v', h1, h2⟩ := leer_estado h hfin hs
      exact ⟨m, v', h1, fun h => absurd h hle, h2⟩
  | iniciar tam pid => cases ht
  | escribir u p d dato => exact hen hd
  | buscarMarco u p => exact hen trivial
  | suspender u => exact hen trivial
  | finalizar u => exact hen trivial

/-! ### The other processes -/

/-- Processes that have not been finished have different files. -/
def Distintos (s : MemoriaGlobal) (fin : List ℕ) : Prop :=
  ∀ t u tt tu, t ∉ fin → u ∉ fin → s.tabla t = some tt → s.tabla u = some tu →
    tt.pcbId = tu.pcbId → t = u

/-- The process of the table is of `pid` and has not been finished. -/
def EsDe (s : MemoriaGlobal) (fin : List ℕ) (t pid : ℕ) : Prop :=
  t ∉ fin ∧ (s.tabla t).map (·.pcbId) = some pid

instance (s : MemoriaGlobal) (fin : List ℕ) (t pid : ℕ) : Decidable (EsDe s fin t pid) :=
  inferInstanceAs (Decidable (_ ∧ _))

theorem EsDe.lt {pid : ℕ} (h : EsDe s fin t pid) : t < s.listaTablasDeTablas.length := by
  obtain ⟨tt, ht, -⟩ := Option.map_eq_some_iff.mp h.2
  exact (List.getElem?_eq_some_iff.mp ht).1

theorem Distintos.eq (h : Distintos s fin) {pid : ℕ} (ht : EsDe s fin t pid) (hu : EsDe s fin u pid) :
    t = u := by
  obtain ⟨tt, h1, h2⟩ := Option.map_eq_some_iff.mp ht.2
  obtain ⟨tu, h3, h4⟩ := Option.map_eq_some_iff.mp hu.2
  exact h t u tt tu ht.1 hu.1 h1 h3 (h2.trans h4.symm)

/-- Who is in each table stays. -/
theorem Ajenas.pcbId (h : Ajenas c t s s') (u : ℕ) :
    (s'.tabla u).map (·.pcbId) = (s.tabla u).map (·.pcbId) := by
  by_cases hu : u = t
  · have h1 := congrArg (Option.map Prod.snd) h.propia
    rw [Option.map_map, Option.map_map] at h1
    rw [hu]
    exact h1
  · rw [h.tabla u hu]

/-- A request on a table, whatever it does to its process. -/
theorem ejecutar_ajenas (hm : Marcos c s fin) (ho : Viva s fin o) (ht : o.tabla = some t)
    (hd : o.EscribeEnPagina c) (hs : ejecutar c s o = some (n, s')) : Ajenas c t s s' := by
  obtain ⟨hlt, hfin⟩ := ho t ht
  obtain ⟨v, hV⟩ := ve_de hm hlt
  by_cases hf : o.finaliza = []
  · obtain ⟨m, v', -, -, h1⟩ := ejecutar_estado hV hfin ht hf hd hs
    exact h1.ajenas
  · cases o with
    | finalizar u =>
      obtain rfl := Option.some.inj ht
      obtain ⟨⟨b, s1⟩, hs1, he⟩ := Option.map_eq_some_iff.mp hs
      obtain rfl : s1 = s' := (Prod.mk.inj he).2
      have htt : s.tabla u = some s.listaTablasDeTablas[u] := List.getElem?_eq_getElem hlt
      obtain ⟨s2, tt', h1, -, h3, -⟩ := finalizarPaginas_simula _ (hm.finalizada u)
        List.mem_cons_self htt rfl
      simp only [finalizarProceso, htt, h1, Option.bind_eq_bind, Option.bind_some, Option.some.injEq,
        Prod.mk.injEq] at hs1
      exact hs1.2 ▸ h3
    | _ => exact absurd rfl hf

/-- **The others** do not see a request on a process. -/
theorem vista_ajena (hm : Marcos c s fin) (hdist : Distintos s fin) (ho : Viva s fin o)
    (ht : o.tabla = some t) (hd : o.EscribeEnPagina c) (hs : ejecutar c s o = some (n, s'))
    (hu : u ≠ t) (hfin : u ∉ fin) : vista c s' u = vista c s u := by
  obtain ⟨hlt, hft⟩ := ho t ht
  have htt : s.tabla t = some s.listaTablasDeTablas[t] := List.getElem?_eq_getElem hlt
  exact (ejecutar_ajenas hm ho ht hd hs).vista hm hu htt fun tu htu he => hu (hdist u t tu _ hfin hft htu htt he)

theorem Distintos.congr (h : Distintos s fin)
    (hp : ∀ u, (s'.tabla u).map (·.pcbId) = (s.tabla u).map (·.pcbId)) {l : List ℕ} :
    Distintos s' (l ++ fin) := by
  intro t u tt tu ht hu h1 h2 he
  have h3 := hp t
  have h4 := hp u
  rw [h1, Option.map_some] at h3
  rw [h2, Option.map_some] at h4
  obtain ⟨tt', h5, h6⟩ := Option.map_eq_some_iff.mp h3.symm
  obtain ⟨tu', h7, h8⟩ := Option.map_eq_some_iff.mp h4.symm
  exact h t u tt' tu' (fun h => ht (List.mem_append_right l h))
    (fun h => hu (List.mem_append_right l h)) h5 h7
    (by rw [h6, h8, he])

/-- A new process with a file of its own. -/
theorem Distintos.crear {pid : ℕ} (h : Distintos s fin) (hn : Nace c s s' pid v)
    (hp : ∀ u, ¬ EsDe s fin u pid) : Distintos s' fin := by
  obtain ⟨tn, hc, hpn⟩ := hn.crea
  have h1 : ∀ {u tu}, u ∉ fin → s'.tabla u = some tu → u = s.listaTablasDeTablas.length ∧ tu.pcbId = pid ∨
      s.tabla u = some tu ∧ tu.pcbId ≠ pid := fun {u tu} hu ht => by
    by_cases he : u = s.listaTablasDeTablas.length
    · rw [he, hc.tabla_nueva] at ht
      cases ht
      exact Or.inl ⟨he, hpn⟩
    · rw [hc.tabla_vieja he] at ht
      exact Or.inr ⟨ht, fun hp' => hp u ⟨hu, by rw [ht, Option.map_some, hp']⟩⟩
  intro t u tt tu hft hfu ht hu he
  rcases h1 hft ht with ⟨h2, h3⟩ | ⟨h2, h3⟩ <;> rcases h1 hfu hu with ⟨h4, h5⟩ | ⟨h4, h5⟩
  · rw [h2, h4]
  · exact absurd (he ▸ h3) h5
  · exact absurd (he ▸ h5) h3
  · exact h t u tt tu hft hfu h2 h4 he

end Memoria
end Kiss
