import PooledStore.Console
import PooledStore.Main
import PooledStore.Pool.Trial
import PooledStore.Proofs.Config.Loading
import PooledStore.Proofs.Config.Resolution
import PooledStore.Proofs.Migration.Accounting
import PooledStore.Proofs.Migration.Finding
import PooledStore.Proofs.Migration.Independence
import PooledStore.Proofs.Migration.Prefix
import PooledStore.Proofs.Migration.Updaters
import PooledStore.Proofs.Pool.Closing
import PooledStore.Proofs.Pool.Draining
import PooledStore.Proofs.Pool.Physical
import PooledStore.Proofs.Pool.Polling
import PooledStore.Proofs.Pool.Stranded
import PooledStore.Proofs.Pool.Throttle
import PooledStore.Proofs.Server.Layers
import PooledStore.Proofs.Server.Readiness
import PooledStore.Proofs.Service.CleanReturn
import PooledStore.Proofs.Service.Shutdown
