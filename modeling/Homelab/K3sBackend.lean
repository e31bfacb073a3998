import Homelab.DeployBackend

/-! The k3s backend: it delegates to a wrapped Kubernetes backend under a scoped credential. -/
namespace Homelab
open Js Dialogue

/-- `PARAM_SCHEMA` of `k3s.ts` -/
def k3sSchema : List (JsString × ParamSchema) :=
  [(js "cluster_id", requiredText .identifier),
    (js "namespace", .string false (.str (js "default")) none none (some .identifier)),
    (js "manifest_path", requiredText .path), (js "deployment_name", requiredText .identifier),
    (js "ready_timeout_seconds", numberIn 180 10 600)]

/-- `cluster:<context>/namespace:<namespace>` -/
def clusterScope (contextName namespaceName : JsString) : JsString :=
  js "cluster:" ++ contextName ++ js "/namespace:" ++ namespaceName

/-- What `deploy` makes of the record of the wrapped backend; its HMAC stays. -/
def decorate (clusterId : JsValue) (inner : DeploymentRecord) : DeploymentRecord where
  payload := { inner.payload with
    backendName := js "k3s"
    details := setOwn (js "cluster_id") clusterId inner.payload.details }
  hmac := inner.hmac

/-- `deploy` -/
def k3sDeploy (artifact : BuildArtifact) (env : JsString) (rawParams : Fields) :
    Deploy DeploymentRecord := do
  let params ← Deploy.check (validateParameters rawParams k3sSchema)
  let clusterId := getOwn (js "cluster_id") params
  let namespaceName := (getOwn (js "namespace") params).orElse (.str (js "default"))
  let contextName ← Deploy.resolveContextName clusterId
  let kubeconfig ← Deploy.acquire clusterId (js "K8s:Apply")
    (clusterScope contextName namespaceName.coerce)
  let translated := ofEntries (params ++ [(js "context_name", .str contextName),
    (js "namespace", namespaceName), (js "scopedKubeconfig", kubeconfig)])
  let inner ← Deploy.k8sDeploy artifact env translated
  return decorate clusterId inner

/-- The credential that `healthCheck` and `rollback` acquire for the cluster of the record. -/
def acquireFor (details : Fields) (op : JsString) : Deploy Unit := do
  let clusterId := getOwn (js "cluster_id") details
  let contextName ← Deploy.resolveContextName clusterId
  let namespaceName ← templateOf ((getOwn (js "namespace") details).orElse (.str (js "default")))
  let _ ← Deploy.acquire clusterId op (clusterScope contextName namespaceName)
  return ()

/-- The credential of a health check, when the record names its cluster. -/
def acquireForCheck (details : Fields) : Deploy Unit :=
  if isUndefined (getOwn (js "cluster_id") details) then return ()
  else acquireFor details (js "K8s:Read")

/-- `healthCheck` -/
def k3sHealthCheck (record : DeploymentRecord) : Deploy HealthStatus := do
  acquireForCheck record.payload.details
  Deploy.k8sHealthCheck record

/-- `rollback` -/
def k3sRollback (record : DeploymentRecord) : Deploy RollbackResult := do
  let details := record.payload.details
  if isUndefined (getOwn (js "cluster_id") details) then
    Deploy.raise (.plain .rollbackFailed
      (js "k3s rollback requires details.cluster_id to be set on the record"))
  else do
    acquireFor details (js "K8s:Patch")
    Deploy.k8sRollback record

end Homelab
