/-
# A read answers what was written

Every process sees a flat array: in every run, whatever goes to swap and comes back, a read
answers the four bytes that the same writes leave in an array of zeros. The two places that
write a page to its file use its number where they should use its place in its table, so a
page that is not of the first table overwrites another one, and is not found afterwards
(`not_refina`). Without such a write every run refines the array (`recorrido_refina`).

Key definitions: `vuelca`, `EnSuLugar`, `Recorrido`, `Refina`.
Key theorems: `recorrido_guarda`, `recorrido_refina`, `not_refina`.
-/
import Kiss.Memoria.Plana
import Kiss.Memoria.Desalojos

namespace Kiss
namespace Memoria

/-! ### What goes to swap -/

/-- The bit of modification of page `w`. -/
def modificada (c : ConfigMemoria) (s : MemoriaGlobal) (t w : ℕ) : Bool :=
  ((buscarPaginaEnTablas c s t w).join.bind s.pagina).any (·.modificado)

/-- The pages that a request writes to swap: the victim when it was modified, all of them
in a suspension. -/
def vuelca (c : ConfigMemoria) (s : MemoriaGlobal) : Operacion → List ℕ
  | .escribir t p _ _ | .leer t p _ | .buscarMarco t p =>
    (desalojada c s t p).toList.filter fun w => modificada c s t w
  | .suspender t => ((s.tabla t).map fun tt => tt.paginasAsignadas.map (·.numeroPagina)).getD []
  | .iniciar _ _ | .finalizar _ => []

/-- What goes to swap is of the first table, where the number of a page is its place, and
a new process gets a file and entries for all its pages. -/
def EnSuLugar (c : ConfigMemoria) (s : MemoriaGlobal) : Operacion → Prop
  | .iniciar tam _ => Cubre c tam
  | o => ∀ w ∈ vuelca c s o, w < c.entradasPorTabla

instance (c : ConfigMemoria) (tam : ℕ) : Decidable (Cubre c tam) :=
  decidable_of_iff (paginasDeTamano c tam * c.tamPagina < 2 ^ 31 ∧
      ∃ y ∈ cuenta c tam, ∀ p < paginasDeTamano c tam, numeroDeTabla c p < y.2 ∧ numeroDePagina c p < y.1)
    ⟨fun h => ⟨h.1, h.2⟩, fun h => ⟨h.1, h.2⟩⟩

instance (c : ConfigMemoria) (s : MemoriaGlobal) (o : Operacion) : Decidable (EnSuLugar c s o) :=
  match o with
  | .iniciar tam _ => inferInstanceAs (Decidable (Cubre c tam))
  | .escribir t p d dato => inferInstanceAs (Decidable (∀ w ∈ vuelca c s (.escribir t p d dato), _))
  | .leer t p d => inferInstanceAs (Decidable (∀ w ∈ vuelca c s (.leer t p d), _))
  | .buscarMarco t p => inferInstanceAs (Decidable (∀ w ∈ vuelca c s (.buscarMarco t p), _))
  | .suspender t => inferInstanceAs (Decidable (∀ w ∈ vuelca c s (.suspender t), _))
  | .finalizar t => inferInstanceAs (Decidable (∀ w ∈ vuelca c s (.finalizar t), _))

/-! ### Runs -/

/-- The runs in which every access is to a page of its process and inside it, and every
request meets `P`. -/
inductive Recorrido (c : ConfigMemoria) (P : MemoriaGlobal → Operacion → Prop) :
    List Evento → MemoriaGlobal → List ℕ → Prop
  | inicio {s} (h : Inicial c s) : Recorrido c P [] s []
  | paso {es s fin s'} (e : Evento) (t : ℕ) (h : Recorrido c P es s fin) (ho : e.pedido.De s fin t e.pid)
      (hd : e.pedido.Dentro c (plano c (pedidos e.pid es))) (hP : P s (e.operacion t))
      (hs : ejecutar c s (e.operacion t) = some (e.respuesta, s')) (hn : Numerable s') :
      Recorrido c P (es ++ [e]) s' ((e.operacion t).finaliza ++ fin)

/-- Every process is its array: an access or a suspension that meets `P` is answered, when
there is a frame for it, and a read with the four bytes of the array. -/
structure Refina (c : ConfigMemoria) (P : MemoriaGlobal → Operacion → Prop) (es : List Evento)
    (s : MemoriaGlobal) (fin : List ℕ) : Prop where
  leer : ∀ t pid p d, EsDe s fin t pid → p < (plano c (pedidos pid es)).paginas c → d + 4 ≤ c.tamPagina →
    P s (.leer t p d) → ¬ Agotado c s t p →
      ∃ s', leerEnPagina c s t p d = some ((plano c (pedidos pid es)).leer c p d, s')
  responde : ∀ t pid (e : Pedido), EsDe s fin t pid → (∀ tam, e ≠ .iniciar tam) → e ≠ .finalizar →
    e.Dentro c (plano c (pedidos pid es)) → P s (e.operacion t pid) →
      ¬ SinLugar c s (e.operacion t pid) → (ejecutar c s (e.operacion t pid)).isSome

variable {c : ConfigMemoria} {P : MemoriaGlobal → Operacion → Prop} {s s' s0 : MemoriaGlobal}
  {t pid p n : ℕ} {fin : List ℕ} {es : List Evento} {e : Evento} {v : Proceso} {x : Plano}

theorem Recorrido.traza (h : Recorrido c P es s fin) : Traza c es s fin := by
  induction h with
  | inicio h => exact .inicio h
  | paso e t h ho hd hP hs hn ih => exact ih.paso e t ho hs hn

theorem Pedido.Dentro.enPagina {e : Pedido} (h : e.Dentro c x) : e.EnPagina c := by
  cases e with
  | escribir p d dato => exact Or.inl h.2
  | leer p d => exact Or.inl h.2
  | _ => trivial

theorem Recorrido.enPagina (h : Recorrido c P es s fin) (pid : ℕ) : ∀ e ∈ es, e.EnPagina c pid := by
  induction h with
  | inicio h => exact fun e he => absurd he List.not_mem_nil
  | paso e t h ho hd hP hs hn ih =>
    intro e' he'
    rcases List.mem_append.mp he' with he' | he'
    · exact ih e' he'
    · rw [List.mem_singleton.mp he']
      exact fun _ => hd.enPagina

theorem plano_concat (es : List Pedido) (e : Pedido) : plano c (es ++ [e]) = (plano c es).paso c e := by
  rw [plano, List.foldl_append]
  rfl

theorem pedidos_concat (es : List Evento) (e : Evento) :
    pedidos pid (es ++ [e]) = if e.pid = pid then pedidos pid es ++ [e.pedido] else pedidos pid es := by
  unfold pedidos
  rw [List.filter_append]
  by_cases h : e.pid = pid
  · simp [h]
  · simp [h]

/-! ### The process in the state -/

/-- What the victim is in the state. -/
theorem vuelca_victima (hV : Ve c fin t s s v) (hfin : t ∉ fin) (hb : v.buscar c p = some true)
    (hno : v.residente p = none) (hle : c.marcosPorProceso ≤ v.residentes.length) {l : List Residente} {i : ℕ}
    {r : Residente} (hvic : v.victima c = some (l, i)) (hr : l[i]? = some r) (hm : r.modificado = true) :
    r.numeroPagina ∈ (desalojada c s t p).toList.filter fun w => modificada c s t w := by
  obtain ⟨tt, ht, -⟩ := Option.map_eq_some_iff.mp hV.vista
  obtain ⟨hnum, -⟩ := nodup_residentes hV ht
  -- the page has an entry and is not present
  have hb' := buscar_simula (p := p) hV ht
  rw [hb] at hb'
  obtain ⟨y, hy, hsome⟩ := Option.map_eq_some_iff.mp hb'
  obtain ⟨q, rfl⟩ := Option.isSome_iff_exists.mp hsome
  have hnot : p ∉ tt.paginasAsignadas.map (·.numeroPagina) := by
    rw [← hnum]
    intro hmem
    obtain ⟨k, hk, hkp⟩ := List.mem_map.mp hmem
    exact residente_none hno k hk hkp
  have hq : dir c s t p = some q := by rw [← join_buscarPaginaEnTablas, hy]; rfl
  obtain ⟨w, hw, hpre⟩ := ausente_of_dir hV.marcos hfin ht hq hnot
  have hlen : ¬ tt.paginasAsignadas.length < c.marcosPorProceso := by
    rw [← (acotado_de hV ht).1]
    exact not_lt.mpr hle
  -- the search of the module ends at the same place
  have hsel := seleccionar_simula hV ht
  rw [hvic] at hsel
  rcases hs1 : seleccionarPaginaVictima c s t with _ | s1
  · rw [hs1] at hsel
    cases hsel
  rw [hs1] at hsel
  obtain ⟨hV1, ht1⟩ : Ve c fin t s s1 { v with residentes := l, puntero := i } ∧
      s1.tabla t = some { tt with punteroMarcos := i } := by
    cases hsel with
    | some hsel => exact hsel
  obtain ⟨r0, w0, hr0, -, -, he0⟩ := residente_de hV1 ht1 hr
  have hd : desalojada c s t p = some r.numeroPagina := by
    unfold desalojada
    simp only [hy, hw, ht, hpre, hs1, ht1, hr0, hlen, he0, Option.bind_eq_bind, Option.bind_some,
      Bool.false_eq_true, or_self, if_false]
  -- and its page is modified there
  have hmod : modificada c s t r.numeroPagina = true := by
    have h1 := congrArg (fun k => k[i]?) (victima_mismos hvic)
    simp only [List.getElem?_map, hr, Option.map_some] at h1
    obtain ⟨r', hr', he'⟩ := Option.map_eq_some_iff.mp h1.symm
    obtain ⟨h2, h3, -⟩ := sinUso_eq he'
    obtain ⟨r1, w1, hr1, hw1, -, he1⟩ := residente_de hV ht hr'
    have h4 := (hV.marcos.asignada ht (List.mem_of_getElem? hr1)).1
    have h5 : r1.numeroPagina = r.numeroPagina := by rw [← h2, he1]
    have h6 : w1.modificado = true := by rw [← hm, ← h3, he1]
    rw [modificada, join_buscarPaginaEnTablas, ← h5, h4, Option.bind_some, hw1, Option.any_some, h6]
  rw [hd]
  simp [hmod]

/-- What goes to its place in the state, goes to its place in the process. -/
theorem EnSuLugar.proceso {e : Pedido} (h : EnSuLugar c s (e.operacion t pid)) (hV : Ve c fin t s s v)
    (hfin : t ∉ fin) (hg : Guarda c x v) (hd : e.Dentro c x) : v.EnSuLugar c e := by
  cases e with
  | escribir p d dato =>
    exact fun hno hle l i r hvic hr hm => h _ (vuelca_victima hV hfin (hg.entradas p hd.1) hno hle hvic hr hm)
  | leer p d =>
    exact fun hno hle l i r hvic hr hm => h _ (vuelca_victima hV hfin (hg.entradas p hd.1) hno hle hvic hr hm)
  | buscarMarco p =>
    exact fun hno hle l i r hvic hr hm => h _ (vuelca_victima hV hfin (hg.entradas p hd) hno hle hvic hr hm)
  | suspender =>
    intro r hr
    obtain ⟨tt, ht, -⟩ := Option.map_eq_some_iff.mp hV.vista
    apply h
    simp only [Pedido.operacion, vuelca, ht, Option.map_some, Option.getD_some]
    rw [← (nodup_residentes hV ht).1]
    exact List.mem_map_of_mem hr
  | iniciar tam => trivial
  | finalizar => trivial

/-- A process seen in the state of a run has a bounded list and its hand in it. -/
theorem acotado_ve (h : Traza c es s fin) (hV : Ve c fin t s s v) (hfin : t ∉ fin) :
    Acotado c v.residentes.length v.puntero := by
  obtain ⟨tt, ht, -⟩ := Option.map_eq_some_iff.mp hV.vista
  obtain ⟨h1, h2⟩ := acotado_de hV ht
  rw [h1, h2]
  exact (corrida_invariante (traza_corrida h)).acotada hfin ht

/-- A request of the process keeps the array. -/
theorem guarda_paso {e : Pedido} {y y' : Option Proceso} {l l' : List ℕ} (hm : 1 ≤ c.marcosPorProceso)
    (ha : c.algoritmoReemplazo ≠ .otro) (h : e.paso c (y, l) = some (y', l')) (hd : e.Dentro c x)
    (hc : ∀ tam, e = .iniciar tam → Cubre c tam)
    (hy : ∀ v, y = some v → (∀ tam, e ≠ .iniciar tam) → e ≠ .finalizar →
      Guarda c x v ∧ Acotado c v.residentes.length v.puntero ∧ v.EnSuLugar c e) :
    ∀ v, y' = some v → Guarda c (x.paso c e) v := by
  intro v hv
  -- a request on the process there is
  have hreq : (∀ tam, e ≠ .iniciar tam) → e ≠ .finalizar → (∃ w n, y = some w ∧
      w.ejecutar c (e.operacion 0 0) = some (n, v)) → Guarda c (x.paso c e) v := by
    rintro hi hf ⟨w, n, rfl, hn⟩
    obtain ⟨h1, h2, h3⟩ := hy w rfl hi hf
    obtain ⟨n', v', h4, h5, -⟩ := h1.ejecutar hm ha h2 hi hf hd h3
    rw [hn, Option.some.injEq, Prod.mk.injEq] at h4
    exact h4.2 ▸ h5
  have hbind : (y.bind fun w => (w.ejecutar c (e.operacion 0 0)).bind fun z =>
      some (some z.2, if e.esLectura then l ++ [z.1] else l)) = some (y', l') →
      ∃ w n, y = some w ∧ w.ejecutar c (e.operacion 0 0) = some (n, v) := fun h => by
    obtain ⟨w, hw, h⟩ := Option.bind_eq_some_iff.mp h
    obtain ⟨⟨n, v'⟩, hn, h⟩ := Option.bind_eq_some_iff.mp h
    rw [hv] at h
    obtain rfl : v' = v := Option.some.inj (Prod.mk.inj (Option.some.inj h)).1
    exact ⟨w, n, hw, hn⟩
  cases e with
  | iniciar tam =>
    simp only [Pedido.paso] at h
    split_ifs at h
    obtain ⟨v', hv', h⟩ := Option.map_eq_some_iff.mp h
    obtain rfl : v' = v := Option.some.inj ((Prod.mk.inj h).1.trans hv)
    exact guarda_nuevo (hc tam rfl) hv'
  | finalizar =>
    rw [← (Prod.mk.inj (Option.some.inj h)).1] at hv
    cases hv
  | escribir p d dato => exact hreq (fun _ he => by cases he) (fun he => by cases he) (hbind h)
  | leer p d => exact hreq (fun _ he => by cases he) (fun he => by cases he) (hbind h)
  | buscarMarco p => exact hreq (fun _ he => by cases he) (fun he => by cases he) (hbind h)
  | suspender => exact hreq (fun _ he => by cases he) (fun he => by cases he) (hbind h)

/-- **Every process holds its array**, in every run in which what goes to swap goes to its
place. -/
theorem recorrido_guarda (hm : 1 ≤ c.marcosPorProceso) (ha : c.algoritmoReemplazo ≠ .otro)
    (h : Recorrido c (EnSuLugar c) es s fin) (pid : ℕ) :
    ∃ y, Sigue c s fin pid y ∧ ∀ v, y = some v → Guarda c (plano c (pedidos pid es)) v := by
  induction h with
  | inicio h =>
    obtain ⟨y, -, hy⟩ : ∃ x, solo c (pedidos pid []) = some (x, lecturas pid []) ∧ Sigue c _ _ pid x :=
      traza_solo (.inicio h) fun e he => absurd he List.not_mem_nil
    refine ⟨y, hy, fun v hv => ?_⟩
    obtain ⟨t, ht, -⟩ := hy.vive hv
    have h1 := ht.lt
    rw [h.tablas] at h1
    exact absurd h1 (Nat.not_lt_zero t)
  | @paso es s fin s' e t h ho hd hP hs hn ih =>
    obtain ⟨y, hsig, hg⟩ := ih
    have hT := h.traza
    have hM := (corrida_invariante (traza_corrida hT)).marcos
    have hdist := traza_distintos hT (h.enPagina pid)
    have hpag : e.EnPagina c pid := fun _ => hd.enPagina
    rw [pedidos_concat]
    by_cases hp : e.pid = pid
    · subst hp
      obtain ⟨y', h1, h2⟩ := hsig.propio (l := []) hM hdist (fin_lt hT) ho hpag hs hn
      refine ⟨y', h2, ?_⟩
      rw [if_pos rfl, plano_concat]
      refine guarda_paso hm ha h1 hd (fun tam he => ?_) fun v hv hi hf => ?_
      · rw [Evento.operacion, he] at hP
        exact hP
      · -- the process is the one of the table
        obtain ⟨u, hu, hvu⟩ := hsig.vive hv
        obtain rfl : t = u := by
          refine hdist.eq ?_ hu
          rcases hpe : e.pedido with tam | _ | _ | _ | _ | _
          · exact absurd hpe (hi tam)
          all_goals
            rw [hpe] at ho
            exact ho
        have hV : Ve c fin t s s v := ⟨hM, hvu, Ajenas.refl c t s⟩
        exact ⟨hg v hv, acotado_ve hT hV hu.1, EnSuLugar.proceso hP hV hu.1 (hg v hv) hd⟩
    · rw [if_neg hp]
      refine ⟨y, ?_, hg⟩
      obtain ⟨pid', pedido, respuesta⟩ := e
      cases pedido with
      | iniciar tam =>
        obtain ⟨-, v, -, hnace⟩ := iniciar_nace hs hn
        exact hsig.crear_otro hM hnace hp
      | _ => exact hsig.otro hM hdist (viva_of_de ho) rfl (by simp [Evento.operacion, Pedido.operacion,
          Operacion.finaliza]) ho hp (hpag.escribe t) hs

/-- The next request of a process, by the array. -/
theorem responde_guarda {e : Pedido} (hm : 1 ≤ c.marcosPorProceso) (ha : c.algoritmoReemplazo ≠ .otro)
    (h : Recorrido c (EnSuLugar c) es s fin) (ht : EsDe s fin t pid) (hi : ∀ tam, e ≠ .iniciar tam)
    (hf : e ≠ .finalizar) (hd : e.Dentro c (plano c (pedidos pid es)))
    (hP : EnSuLugar c s (e.operacion t pid)) (hl : ¬ SinLugar c s (e.operacion t pid)) :
    ∃ n s', ejecutar c s (e.operacion t pid) = some (n, s') ∧
      ∀ p d, e = .leer p d → n = (plano c (pedidos pid es)).leer c p d := by
  obtain ⟨y, hsig, hg⟩ := recorrido_guarda hm ha h pid
  have hT := h.traza
  have hM := (corrida_invariante (traza_corrida hT)).marcos
  rcases hy : y with _ | v
  · exact absurd ht (hsig.falta hy t)
  obtain ⟨u, hu, hvu⟩ := hsig.vive hy
  obtain rfl := (traza_distintos hT (h.enPagina pid)).eq ht hu
  have hV : Ve c fin t s s v := ⟨hM, hvu, Ajenas.refl c t s⟩
  obtain ⟨n, v', h1, -, h2⟩ := (hg v hy).ejecutar hm ha (acotado_ve hT hV ht.1) hi hf hd
    (EnSuLugar.proceso hP hV ht.1 (hg v hy) hd)
  have htab : (e.operacion t pid).tabla = some t ∧ (e.operacion t pid).finaliza = [] ∧
      (e.operacion t pid).EnPagina c ∧ ((e.operacion t pid).daMarco = true → ∀ p d, e ≠ .leer p d) := by
    cases e with
    | iniciar tam => exact absurd rfl (hi tam)
    | finalizar => exact absurd rfl hf
    | escribir p d dato => exact ⟨rfl, rfl, hd.enPagina, fun _ _ _ he => by cases he⟩
    | leer p d => exact ⟨rfl, rfl, hd.enPagina, fun he => by cases he⟩
    | buscarMarco p => exact ⟨rfl, rfl, trivial, fun _ _ _ he => by cases he⟩
    | suspender => exact ⟨rfl, rfl, trivial, fun _ _ _ he => by cases he⟩
  obtain ⟨h3, h4, h5, h6⟩ := htab
  rcases ejecutar_simula hV ht.1 h3 h4 h5 with ⟨h7, -⟩ | h7
  · exact absurd h7 hl
  rw [ejecutar_operacion, h1] at h7
  rcases hs : ejecutar c s (e.operacion t pid) with _ | ⟨m, s'⟩
  · rw [hs] at h7
    cases h7
  rw [hs] at h7
  refine ⟨m, s', rfl, fun p d he => ?_⟩
  have h8 : (e.operacion t pid).daMarco = false := by
    by_contra hda
    exact h6 (by simpa using hda) p d he
  cases h7 with
  | some h7 => exact (h7.1 h8).trans (h2 p d he)

/-- **The memory refines a flat array** for every process, in every run in which what goes
to swap goes to its place. -/
theorem recorrido_refina (hm : 1 ≤ c.marcosPorProceso) (ha : c.algoritmoReemplazo ≠ .otro)
    (h : Recorrido c (EnSuLugar c) es s fin) : Refina c (EnSuLugar c) es s fin where
  leer t pid p d ht hp hd hP hl := by
    obtain ⟨n, s', h1, h2⟩ := responde_guarda (e := .leer p d) hm ha h ht (fun _ he => by cases he)
      (fun he => by cases he) ⟨hp, hd⟩ hP fun ⟨t', p', hacc, hag⟩ => by
        obtain ⟨rfl, rfl⟩ := Prod.mk.inj (Option.some.inj hacc)
        exact hl hag
    exact ⟨s', h2 p d rfl ▸ h1⟩
  responde t pid e ht hi hf hd hP hl := by
    obtain ⟨n, s', h1, -⟩ := responde_guarda hm ha h ht hi hf hd hP hl
    rw [h1]
    rfl

/-! ### Runs of a list of requests -/

instance (c : ConfigMemoria) (x : Plano) (e : Pedido) : Decidable (e.Dentro c x) :=
  match e with
  | .escribir p d _ | .leer p d => inferInstanceAs (Decidable (p < x.paginas c ∧ d + 4 ≤ c.tamPagina))
  | .buscarMarco p => inferInstanceAs (Decidable (p < x.paginas c))
  | .iniciar _ | .suspender | .finalizar => .isTrue trivial

/-- The requests of a list of processes, while they meet `P`. -/
def recorrer (c : ConfigMemoria) (P : MemoriaGlobal → Operacion → Prop) [∀ s o, Decidable (P s o)] :
    List (ℕ × Pedido) → List Evento × MemoriaGlobal × List ℕ → Option (List Evento × MemoriaGlobal × List ℕ)
  | [], y => some y
  | (pid, e) :: l, (es, s, fin) =>
    let t := ((List.range s.listaTablasDeTablas.length).find? fun t => EsDe s fin t pid).getD 0
    if e.De s fin t pid ∧ e.Dentro c (plano c (pedidos pid es)) ∧ P s (e.operacion t pid) then do
      let (n, s') ← ejecutar c s (e.operacion t pid)
      if Numerable s' then
        recorrer c P l (es ++ [⟨pid, e, n⟩], s', (e.operacion t pid).finaliza ++ fin)
      else none
    else none

theorem recorrer_recorrido [∀ s o, Decidable (P s o)] : ∀ (l : List (ℕ × Pedido))
    {y z : List Evento × MemoriaGlobal × List ℕ}, Recorrido c P y.1 y.2.1 y.2.2 →
      recorrer c P l y = some z → Recorrido c P z.1 z.2.1 z.2.2
  | [], y, z, hy, h => by
    rw [← Option.some.inj h]
    exact hy
  | (pid, e) :: l, (es, s, fin), z, hy, h => by
    unfold recorrer at h
    dsimp only at h
    split_ifs at h with ho
    obtain ⟨⟨n, s'⟩, hs, h⟩ := Option.bind_eq_some_iff.mp h
    dsimp only at h
    split_ifs at h with hn
    exact recorrer_recorrido l (Recorrido.paso ⟨pid, e, n⟩ _ hy ho.1 ho.2.1 ho.2.2 hs hn) h

theorem recorrido_refina_dosProcesos : ∃ z, recorrer (chica 2 1) (EnSuLugar (chica 2 1))
    [(0, .iniciar 8), (1, .iniciar 8), (0, .escribir 1 0 7), (0, .leer 0 0), (1, .suspender), (0, .suspender)]
      ([], sinProcesos, []) = some z ∧ Refina (chica 2 1) (EnSuLugar (chica 2 1)) z.1 z.2.1 z.2.2 := by
  obtain ⟨z, hz⟩ := Option.isSome_iff_exists.mp (show (recorrer (chica 2 1) (EnSuLugar (chica 2 1))
    [(0, .iniciar 8), (1, .iniciar 8), (0, .escribir 1 0 7), (0, .leer 0 0), (1, .suspender), (0, .suspender)]
      ([], sinProcesos, [])).isSome by decide +kernel)
  exact ⟨z, hz, recorrido_refina (by decide +kernel) (by decide +kernel)
    (recorrer_recorrido _ (.inicio ⟨rfl, rfl, fun _ _ => rfl⟩) hz)⟩

/-- Page 2 of four, with two entries for a table and one frame for a process: it goes to the
place after the last page, and comes back as it was created. -/
theorem not_refina : ¬ ∀ (c : ConfigMemoria) (es : List Evento) (s : MemoriaGlobal) (fin : List ℕ),
    4 ≤ c.tamPagina → 1 ≤ c.marcosPorProceso → c.algoritmoReemplazo ≠ .otro →
      Recorrido c (fun _ _ => True) es s fin → Refina c (fun _ _ => True) es s fin := by
  intro h
  obtain ⟨z, hz, h1⟩ := Option.map_eq_some_iff.mp (show (recorrer (chica 2 1) (fun _ _ => True)
    [(0, .iniciar 16), (0, .escribir 2 0 99), (0, .leer 0 0)] ([], sinProcesos, [])).map (fun z =>
      (decide (EsDe z.2.1 z.2.2 0 0), (z.2.1.registroEspacioUsuario 1).asignado,
        (plano (chica 2 1) (pedidos 0 z.1)).paginas (chica 2 1),
        (plano (chica 2 1) (pedidos 0 z.1)).leer (chica 2 1) 2 0,
        (leerEnPagina (chica 2 1) z.2.1 0 2 0).map (·.1))) = some (true, false, 4, 99, some 0)
    by decide +kernel)
  obtain ⟨h2, h3, h4, h5, h6⟩ : EsDe z.2.1 z.2.2 0 0 ∧ (z.2.1.registroEspacioUsuario 1).asignado = false ∧
      (plano (chica 2 1) (pedidos 0 z.1)).paginas (chica 2 1) = 4 ∧
      (plano (chica 2 1) (pedidos 0 z.1)).leer (chica 2 1) 2 0 = 99 ∧
      (leerEnPagina (chica 2 1) z.2.1 0 2 0).map (·.1) = some 0 := by
    simpa only [Prod.mk.injEq, decide_eq_true_eq] using h1
  have hr := h (chica 2 1) _ _ _ (by decide +kernel) (by decide +kernel) (by decide +kernel)
    (recorrer_recorrido _ (.inicio ⟨rfl, rfl, fun _ _ => rfl⟩) hz)
  obtain ⟨s', h7⟩ := hr.leer 0 0 2 0 h2 (by rw [h4]; norm_num) (by decide +kernel) trivial fun hag => by
    have h8 := hag.1 1 (by decide +kernel)
    rw [h3] at h8
    cases h8
  rw [h7, h5] at h6
  cases h6

end Memoria
end Kiss
